import EgoBridge.Json.Parse

/-!
# Json.RoundTrip

The parser inverts `render` on every value it can produce: no name twice in one object, every
number in range, and nested less deeply than the limit.

* `lexString_esc`     — a string literal is read back.
* `scanNumber_render` — a number is read back where no further number character follows.
* `parseValue_render` — a value is read back, with the text after it left over. Fuel: two units
  for each character.
* `parse_render`      — a whole text is read back.
* `render_injective`  — a text determines its value, also one the parser refuses.
-/

namespace EgoBridge
namespace Json

/-! ## Values the parser can produce -/

mutual
/-- No object has a name twice. -/
def Strict : Json → Prop
  | .arr vs => StrictElems vs
  | .obj ms => (ms.map Prod.fst).Nodup ∧ StrictMembers ms
  | _ => True

def StrictElems : List Json → Prop
  | [] => True
  | v :: vs => Strict v ∧ StrictElems vs

def StrictMembers : List (String × Json) → Prop
  | [] => True
  | (_, v) :: ms => Strict v ∧ StrictMembers ms
end

mutual
/-- How deeply arrays and objects are nested. -/
def nesting : Json → Nat
  | .arr vs => nestingElems vs + 1
  | .obj ms => nestingMembers ms + 1
  | _ => 0

def nestingElems : List Json → Nat
  | [] => 0
  | v :: vs => max (nesting v) (nestingElems vs)

def nestingMembers : List (String × Json) → Nat
  | [] => 0
  | (_, v) :: ms => max (nesting v) (nestingMembers ms)
end

/-! ## Strings -/

theorem hexVal_hexDigit : ∀ n, n < 16 → hexVal (hexDigit n) = some n := by
  decide

theorem toNat_lt_of_control {c : Char} (h : c.toNat < 32) :
    hex4 '0' '0' (hexDigit (c.toNat / 16)) (hexDigit (c.toNat % 16)) = some c.toNat := by
  have h0 : hexVal '0' = some 0 := by decide
  simp only [hex4, h0, hexVal_hexDigit (c.toNat / 16) (by omega),
    hexVal_hexDigit (c.toNat % 16) (by omega), Option.some.injEq]
  omega

theorem lexString_escChar (c : Char) (r : List Char) :
    lexString (escChar c ++ r) = (lexString r).map fun p => (c :: p.1, p.2) := by
  unfold escChar
  split
  · rename_i h; subst h; rfl
  split
  · rename_i h; subst h; rfl
  split
  · rename_i h; subst h; rfl
  split
  · rename_i h; subst h; rfl
  split
  · rename_i h; subst h; rfl
  split
  · rename_i h; subst h; rfl
  split
  · rename_i h; subst h; rfl
  split
  · rename_i h
    have hl : isLead c.toNat = false := by simp [isLead]; omega
    have ht : isTrail c.toNat = false := by simp [isTrail]; omega
    simp only [List.cons_append, List.nil_append]
    rw [lexString, toNat_lt_of_control h]
    simp [hl, ht, Char.ofNat_toNat]
  · rename_i hq hb _ _ _ _ _ hc
    simp only [List.cons_append, List.nil_append]
    rw [lexString.eq_def]
    split
    · rename_i he; cases he
    · rename_i he; cases he; exact absurd rfl hq
    · rename_i he; cases he; exact absurd rfl hb
    · rename_i he; cases he; exact absurd rfl hb
    · rename_i he
      cases he
      rw [if_neg]
      rintro (h | h)
      · exact hb h
      · exact hc h

theorem lexString_esc (cs r : List Char) : lexString (escString cs ++ '"' :: r) = some (cs, r) := by
  induction cs with
  | nil => rfl
  | cons c cs ih =>
    have hs : escString (c :: cs) ++ '"' :: r = escChar c ++ (escString cs ++ '"' :: r) := by
      simp [escString]
    rw [hs, lexString_escChar, ih]
    rfl

/-! ## Numbers -/

/-- No character that could continue a number. -/
def NumEnd (r : List Char) : Prop :=
  ∀ c, r.head? = some c → c.isDigit = false ∧ c ≠ '.' ∧ c ≠ 'e' ∧ c ≠ 'E'

def NoDigit (r : List Char) : Prop := ∀ c, r.head? = some c → c.isDigit = false

theorem NumEnd.noDigit {r : List Char} (h : NumEnd r) : NoDigit r := fun c hc => (h c hc).1

theorem scanDigits_append (d : Digits) {r : List Char} (hr : NoDigit r) :
    scanDigits (d.chars ++ r) = some (d, r) := by
  have ht : (d.chars ++ r).takeWhile Char.isDigit = d.chars := by
    rw [List.takeWhile_append_of_pos d.all_digit]
    cases r with
    | nil => simp
    | cons c r => simp [List.takeWhile, hr c rfl]
  have hd : (d.chars ++ r).dropWhile Char.isDigit = r := by
    rw [List.dropWhile_append_of_pos d.all_digit]
    cases r with
    | nil => simp
    | cons c r => simp [List.dropWhile, hr c rfl]
  rw [scanDigits, dif_neg (by rw [ht]; exact d.ne_nil), hd]
  congr 2
  cases d
  simp only [Digits.mk.injEq]
  exact ht

theorem scanFrac_none {r : List Char} (hr : ∀ c, r.head? = some c → c ≠ '.') :
    scanFrac r = some (none, r) := by
  unfold scanFrac
  split
  · exact absurd rfl (hr '.' rfl)
  · rfl

theorem scanExp_none {r : List Char} (hr : NumEnd r) : scanExp r = some (none, r) := by
  unfold scanExp
  split
  · rename_i c r'
    have hc := hr c rfl
    rw [if_neg (by rintro (h | h) <;> simp [h] at hc)]
  · rfl

theorem digit_head (d : Digits) : ∃ c r, d.chars = c :: r ∧ c.isDigit = true := by
  obtain ⟨chars, hne, hall⟩ := d
  cases chars with
  | nil => exact absurd rfl hne
  | cons c r => exact ⟨c, r, rfl, hall c List.mem_cons_self⟩

theorem scanExp_some (m : ExpMark) (d : Digits) {r : List Char} (hr : NoDigit r) :
    scanExp (m.chars ++ (d.chars ++ r)) = some (some (m, d), r) := by
  obtain ⟨upper, plus⟩ := m
  have hd := scanDigits_append d hr
  have hmark : ∀ c, c = (if upper then 'E' else 'e') → (c = 'e' ∨ c = 'E') ∧
      decide (c = 'E') = upper := by
    rintro c rfl
    cases upper <;> simp
  obtain ⟨hc, hu⟩ := hmark _ rfl
  cases plus with
  | none =>
    obtain ⟨c, r', he, hdig⟩ := digit_head d
    have hp : c ≠ '+' := by rintro rfl; revert hdig; decide
    have hm : c ≠ '-' := by rintro rfl; revert hdig; decide
    simp only [ExpMark.chars, List.cons_append, List.nil_append, scanExp, if_pos hc]
    rw [he] at hd ⊢
    split
    · rename_i h; cases h; exact absurd rfl hp
    · rename_i h; cases h; exact absurd rfl hm
    · rw [hd, hu]
      rfl
  | some plus =>
    cases plus with
    | true =>
      simp only [ExpMark.chars, List.cons_append, List.nil_append, scanExp, if_pos hc, hd, hu]
      rfl
    | false =>
      simp only [ExpMark.chars, List.cons_append, List.nil_append, scanExp, if_pos hc, hd, hu]
      rfl

/-- The text of a number's exponent part. -/
def expText (e : Option (ExpMark × Digits)) : List Char :=
  match e with
  | none => []
  | some (m, d) => m.chars ++ d.chars

def fracText (f : Option Digits) : List Char :=
  match f with
  | none => []
  | some d => '.' :: d.chars

theorem Number.render_eq (n : Number) :
    n.render = (if n.negative then ['-'] else []) ++ n.int.chars ++ fracText n.frac ++
      expText n.exp := rfl

theorem expText_head {e : Option (ExpMark × Digits)} {r : List Char} (hr : NumEnd r) :
    ∀ c, (expText e ++ r).head? = some c → c.isDigit = false ∧ c ≠ '.' := by
  intro c hc
  cases e with
  | none => exact ⟨(hr c hc).1, (hr c hc).2.1⟩
  | some p =>
    obtain ⟨⟨upper, plus⟩, d⟩ := p
    simp only [expText, ExpMark.chars, List.cons_append, List.head?_cons, Option.some.injEq] at hc
    subst hc
    cases upper <;> simp

theorem scanExp_text (e : Option (ExpMark × Digits)) {r : List Char} (hr : NumEnd r) :
    scanExp (expText e ++ r) = some (e, r) := by
  cases e with
  | none => exact scanExp_none hr
  | some p =>
    rw [expText, List.append_assoc]
    exact scanExp_some p.1 p.2 hr.noDigit

theorem scanFrac_text (f : Option Digits) {r : List Char}
    (hr : ∀ c, r.head? = some c → c.isDigit = false ∧ c ≠ '.') :
    scanFrac (fracText f ++ r) = some (f, r) := by
  cases f with
  | none => exact scanFrac_none fun c hc => (hr c hc).2
  | some d =>
    rw [fracText, List.cons_append, scanFrac, scanDigits_append d fun c hc => (hr c hc).1]
    rfl

theorem fracText_noDigit {f : Option Digits} {r : List Char} (hr : NoDigit r) :
    NoDigit (fracText f ++ r) := by
  intro c hc
  cases f with
  | none => exact hr c hc
  | some d => cases hc; decide

theorem scanUnsigned_text (n : Number) {r : List Char} (hr : NumEnd r) :
    scanUnsigned n.negative (n.int.chars ++ (fracText n.frac ++ (expText n.exp ++ r))) =
      some (n, r) := by
  have he := expText_head (e := n.exp) hr
  have hd := scanDigits_append n.int (fracText_noDigit (f := n.frac) fun c hc => (he c hc).1)
  simp only [scanUnsigned, hd, dif_pos n.no_leading_zero, scanFrac_text n.frac he,
    scanExp_text n.exp hr]

theorem scanNumber_render (n : Number) {r : List Char} (hr : NumEnd r) :
    scanNumber (n.render ++ r) = some (n, r) := by
  have h := scanUnsigned_text n hr
  rw [Number.render_eq]
  cases hn : n.negative with
  | true =>
    rw [hn] at h
    simpa [scanNumber] using h
  | false =>
    rw [hn] at h
    obtain ⟨c, r', he, hdig⟩ := digit_head n.int
    have hm : c ≠ '-' := by rintro rfl; revert hdig; decide
    simp only [Bool.false_eq_true, if_false, List.nil_append, List.append_assoc]
    rw [he] at h ⊢
    simp only [List.cons_append] at h ⊢
    unfold scanNumber
    split
    · rename_i hc; cases hc; exact absurd rfl hm
    · exact h

theorem Number.render_head (n : Number) :
    ∃ c r, n.render = c :: r ∧ (c = '-' ∨ c.isDigit = true) := by
  obtain ⟨c, r, he, hd⟩ := digit_head n.int
  rw [render_eq, he]
  cases n.negative with
  | true => exact ⟨_, _, rfl, .inl rfl⟩
  | false => exact ⟨_, _, rfl, .inr hd⟩

/-! ## Values -/

/-- A character that can begin a value: no whitespace, no closing bracket. -/
def isOpening (c : Char) : Bool := !isWs c && c ≠ ']'

theorem isDigit_opening {c : Char} (h : c = '-' ∨ c.isDigit = true) :
    isOpening c = true ∧ c ≠ '"' ∧ c ≠ '[' ∧ c ≠ '{' ∧ c ≠ 'n' ∧ c ≠ 't' ∧ c ≠ 'f' := by
  have hne : ∀ d : Char, d ≠ '-' → d.isDigit = false → c ≠ d := by
    rintro d hm hd rfl
    cases h with
    | inl h => exact hm h
    | inr h => rw [hd] at h; cases h
  refine ⟨?_, hne _ (by decide) (by decide), hne _ (by decide) (by decide),
    hne _ (by decide) (by decide), hne _ (by decide) (by decide), hne _ (by decide) (by decide),
    hne _ (by decide) (by decide)⟩
  simp [isOpening, isWs, hne ' ' (by decide) (by decide), hne '\n' (by decide) (by decide),
    hne '\t' (by decide) (by decide), hne '\r' (by decide) (by decide),
    hne ']' (by decide) (by decide)]

theorem render_head (v : Json) : ∃ c r, render v = c :: r ∧ isOpening c = true := by
  cases v with
  | null => exact ⟨_, _, rfl, by decide⟩
  | bool b => cases b <;> exact ⟨_, _, rfl, by decide⟩
  | num n =>
    obtain ⟨c, r, he, hc⟩ := n.render_head
    exact ⟨c, r, he, (isDigit_opening hc).1⟩
  | str s => exact ⟨_, _, rfl, by decide⟩
  | arr vs => cases vs <;> exact ⟨_, _, rfl, by decide⟩
  | obj ms => cases ms <;> exact ⟨_, _, rfl, by decide⟩

theorem skipWs_cons {c : Char} (h : isWs c = false) (r : List Char) :
    skipWs (c :: r) = c :: r := by
  simp [skipWs, h]

theorem skipWs_render (v : Json) (r : List Char) : skipWs (render v ++ r) = render v ++ r := by
  obtain ⟨c, t, he, hc⟩ := render_head v
  simp only [isOpening, Bool.and_eq_true, Bool.not_eq_true'] at hc
  rw [he]
  exact skipWs_cons hc.1 (t ++ r)

theorem numEnd_cons {c : Char} (hc : c = ',' ∨ c = ']' ∨ c = '}') (r : List Char) :
    NumEnd (c :: r) := by
  intro d hd
  cases hd
  rcases hc with rfl | rfl | rfl <;> decide

theorem numEnd_renderElems (vs : List Json) (r : List Char) : NumEnd (renderElems vs ++ r) := by
  cases vs with
  | nil => exact numEnd_cons (by simp) r
  | cons v vs => exact numEnd_cons (by simp) _

theorem numEnd_renderMembers (ms : List (String × Json)) (r : List Char) :
    NumEnd (renderMembers ms ++ r) := by
  cases ms with
  | nil => exact numEnd_cons (by simp) r
  | cons m ms => exact numEnd_cons (by simp) _

theorem parseValue_num (fuel depth : Nat) {n : Number} (hn : n.inRange = true) {r : List Char}
    (hr : NumEnd r) : parseValue (fuel + 1) depth (render (.num n) ++ r) = .ok (.num n, r) := by
  have hs := scanNumber_render n hr
  rw [parseValue, skipWs_render]
  simp only [render]
  obtain ⟨c, t, he, hc⟩ := n.render_head
  obtain ⟨-, h1, h2, h3, h4, h5, h6⟩ := isDigit_opening hc
  rw [he] at hs ⊢
  simp only [List.cons_append, if_neg h1, if_neg h2, if_neg h3, if_neg h4, if_neg h5, if_neg h6]
  rw [List.cons_append] at hs
  simp only [hs, if_pos hn]

theorem renderString_length (s : String) : 2 ≤ (renderString s).length := by
  simp only [renderString, List.length_cons, List.length_append, List.length_nil]
  omega

mutual
theorem parseValue_render (v : Json) : ∀ (fuel depth : Nat) (r : List Char), Strict v →
    InRange v → nesting v < depth → 2 * (render v).length ≤ fuel → NumEnd r →
      parseValue fuel depth (render v ++ r) = .ok (v, r) := by
  intro fuel depth r hs hn hd hf hr
  obtain ⟨c, t, hc, _⟩ := render_head v
  have hpos : 0 < (render v).length := by rw [hc]; exact Nat.succ_pos _
  obtain ⟨fuel, rfl⟩ : ∃ n, fuel = n + 1 := ⟨fuel - 1, by omega⟩
  cases v with
  | null =>
    rw [parseValue, skipWs_render]
    simp [render, literal]
  | bool b =>
    rw [parseValue, skipWs_render]
    cases b <;> simp [render, literal]
  | num n => exact parseValue_num fuel depth hn hr
  | str s =>
    have hl := lexString_esc s.toList r
    rw [parseValue, skipWs_render]
    simp only [render, renderString, List.cons_append, List.append_assoc, List.nil_append, hl,
      String.ofList_toList]
    rfl
  | arr vs =>
    rw [parseValue, skipWs_render]
    cases vs with
    | nil =>
      simp only [nesting, nestingElems] at hd
      simp only [render, List.cons_append, List.nil_append]
      obtain ⟨fuel, rfl⟩ : ∃ n, fuel = n + 1 := ⟨fuel - 1, by simp [render] at hf; omega⟩
      simp [parseArray, skipWs_cons, isWs, if_neg (show ¬ depth ≤ 1 by omega)]
    | cons v vs =>
      simp only [nesting, nestingElems] at hd
      simp only [render, List.length_cons, List.length_append] at hf
      obtain ⟨hv, hvs⟩ := hs
      obtain ⟨hnv, hnvs⟩ := hn
      simp only [render, List.cons_append, List.append_assoc]
      obtain ⟨fuel, rfl⟩ : ∃ n, fuel = n + 1 := ⟨fuel - 1, by omega⟩
      have ihv := parseValue_render v fuel (depth - 1) (renderElems vs ++ r) hv hnv (by omega)
        (by omega) (numEnd_renderElems vs r)
      have ihs := parseElems_render vs fuel (depth - 1) r hvs hnvs (by omega)
        (by omega)
      obtain ⟨c, t, hc, ho⟩ := render_head v
      simp only [isOpening, Bool.and_eq_true, decide_eq_true_eq] at ho
      simp only [if_neg (show ¬ depth ≤ 1 by omega), if_neg (show ¬ '[' = '"' by decide), if_true]
      rw [parseArray, skipWs_render, ihv, if_neg (by rw [hc]; simpa using ho.2)]
      simp only [ihs]
  | obj ms =>
    rw [parseValue, skipWs_render]
    cases ms with
    | nil =>
      simp only [nesting, nestingMembers] at hd
      simp only [render, List.cons_append, List.nil_append]
      obtain ⟨fuel, rfl⟩ : ∃ n, fuel = n + 1 := ⟨fuel - 1, by simp [render] at hf; omega⟩
      simp [parseObject, skipWs_cons, isWs, if_neg (show ¬ depth ≤ 1 by omega)]
    | cons m ms =>
      obtain ⟨k, v⟩ := m
      simp only [nesting, nestingMembers] at hd
      simp only [render, List.length_cons, List.length_append] at hf
      obtain ⟨hnodup, hv, hms⟩ := hs
      obtain ⟨hnv, hnms⟩ := hn
      simp only [List.map_cons, List.nodup_cons] at hnodup
      have hk := renderString_length k
      simp only [render, List.cons_append, List.append_assoc]
      obtain ⟨fuel, rfl⟩ : ∃ n, fuel = n + 1 := ⟨fuel - 1, by omega⟩
      obtain ⟨fuel, rfl⟩ : ∃ n, fuel = n + 1 := ⟨fuel - 1, by omega⟩
      have ihv := parseValue_render v fuel (depth - 1) (renderMembers ms ++ r) hv hnv (by omega)
        (by omega) (numEnd_renderMembers ms r)
      have hseen : ∀ k' ∈ ms.map Prod.fst, k' ∉ [k] := by
        intro k' hk' hm
        exact hnodup.1 (List.mem_singleton.mp hm ▸ hk')
      have ihs := parseMembers_render ms (fuel + 1) (depth - 1) r [k] hms hnms
        hnodup.2 hseen (by omega) (by omega)
      have hl := lexString_esc k.toList (':' :: (render v ++ (renderMembers ms ++ r)))
      simp only [if_neg (show ¬ depth ≤ 1 by omega), if_neg (show ¬ '{' = '"' by decide),
        if_neg (show ¬ '{' = '[' by decide), if_true]
      simp only [renderString, List.cons_append, List.append_assoc, List.nil_append]
      rw [parseObject, skipWs_cons (by decide), if_neg (by simp), parseMember,
        skipWs_cons (by decide)]
      simp only [hl, skipWs_cons (show isWs ':' = false by decide), ihv, String.ofList_toList,
        List.not_mem_nil, if_false, if_true]
      simp only [ihs]

theorem parseElems_render (vs : List Json) : ∀ (fuel depth : Nat) (r : List Char),
    StrictElems vs → InRangeElems vs → nestingElems vs < depth →
      2 * (renderElems vs).length ≤ fuel →
        parseElems fuel depth (renderElems vs ++ r) = .ok (vs, r) := by
  intro fuel depth r hs hn hd hf
  cases vs with
  | nil =>
    obtain ⟨fuel, rfl⟩ : ∃ n, fuel = n + 1 := ⟨fuel - 1, by simp [renderElems] at hf; omega⟩
    simp [renderElems, parseElems, skipWs_cons, isWs]
  | cons v vs =>
    simp only [nestingElems] at hd
    simp only [renderElems, List.length_cons, List.length_append] at hf
    obtain ⟨hv, hvs⟩ := hs
    obtain ⟨hnv, hnvs⟩ := hn
    obtain ⟨fuel, rfl⟩ : ∃ n, fuel = n + 1 := ⟨fuel - 1, by omega⟩
    have ihv := parseValue_render v fuel depth (renderElems vs ++ r) hv hnv (by omega)
        (by omega) (numEnd_renderElems vs r)
    have ihs := parseElems_render vs fuel depth r hvs hnvs (by omega)
      (by omega)
    simp only [renderElems, List.cons_append, List.append_assoc]
    rw [parseElems, skipWs_cons (by decide)]
    simp only [if_neg (show ¬ ',' = ']' by decide), if_true, ihv, ihs]

theorem parseMembers_render (ms : List (String × Json)) : ∀ (fuel depth : Nat) (r : List Char)
    (seen : List String), StrictMembers ms → InRangeMembers ms → (ms.map Prod.fst).Nodup →
      (∀ k ∈ ms.map Prod.fst, k ∉ seen) → nestingMembers ms < depth →
        2 * (renderMembers ms).length ≤ fuel →
          parseMembers fuel depth seen (renderMembers ms ++ r) = .ok (ms, r) := by
  intro fuel depth r seen hs hn hnodup hseen hd hf
  cases ms with
  | nil =>
    obtain ⟨fuel, rfl⟩ : ∃ n, fuel = n + 1 := ⟨fuel - 1, by simp [renderMembers] at hf; omega⟩
    simp [renderMembers, parseMembers, skipWs_cons, isWs]
  | cons m ms =>
    obtain ⟨k, v⟩ := m
    simp only [nestingMembers] at hd
    simp only [renderMembers, List.length_cons, List.length_append] at hf
    obtain ⟨hv, hms⟩ := hs
    obtain ⟨hnv, hnms⟩ := hn
    simp only [List.map_cons, List.nodup_cons] at hnodup
    have hk := renderString_length k
    have hkseen : k ∉ seen := hseen k (by simp)
    obtain ⟨fuel, rfl⟩ : ∃ n, fuel = n + 1 := ⟨fuel - 1, by omega⟩
    obtain ⟨fuel, rfl⟩ : ∃ n, fuel = n + 1 := ⟨fuel - 1, by omega⟩
    have ihv := parseValue_render v fuel depth (renderMembers ms ++ r) hv hnv (by omega)
        (by omega) (numEnd_renderMembers ms r)
    have hseen' : ∀ k' ∈ ms.map Prod.fst, k' ∉ k :: seen := by
      intro k' hk' hm
      cases List.mem_cons.mp hm with
      | inl he => exact hnodup.1 (he ▸ hk')
      | inr hm => exact hseen k' (List.mem_cons_of_mem _ hk') hm
    have ihs := parseMembers_render ms (fuel + 1) depth r (k :: seen)
      hms hnms hnodup.2 hseen' (by omega) (by omega)
    have hl := lexString_esc k.toList (':' :: (render v ++ (renderMembers ms ++ r)))
    simp only [renderMembers, renderString, List.cons_append, List.append_assoc, List.nil_append]
    rw [parseMembers, skipWs_cons (by decide)]
    simp only [if_neg (show ¬ ',' = '}' by decide), if_true]
    rw [parseMember, skipWs_cons (by decide)]
    simp only [hl, skipWs_cons (show isWs ':' = false by decide), ihv, String.ofList_toList,
      if_neg hkseen, if_true, ihs]
end

/-- The parser reads back what `render` writes. -/
theorem parse_render {v : Json} (hs : Strict v) (hn : InRange v) (hd : nesting v < depthLimit) :
    parse (render v) = .ok v := by
  have h := parseValue_render v (2 * (render v).length + 2) depthLimit [] hs hn hd (by omega)
    (by rintro c hc; cases hc)
  rw [List.append_nil] at h
  rw [parse, h]
  rfl

/-! ## A text determines its value -/

/-- What the first character of a value says about it. -/
def startKind (c : Char) : Nat :=
  if c = '"' then 1 else if c = '[' then 2 else if c = '{' then 3 else if c = 'n' then 4
  else if c = 't' then 5 else if c = 'f' then 6 else 0

def valueKind : Json → Nat
  | .num _ => 0
  | .str _ => 1
  | .arr _ => 2
  | .obj _ => 3
  | .null => 4
  | .bool b => if b then 5 else 6

theorem render_startKind (v : Json) : ∃ c t, render v = c :: t ∧ startKind c = valueKind v := by
  cases v with
  | null => exact ⟨_, _, rfl, rfl⟩
  | bool b => cases b <;> exact ⟨_, _, rfl, rfl⟩
  | num n =>
    obtain ⟨c, t, he, hc⟩ := n.render_head
    obtain ⟨-, h1, h2, h3, h4, h5, h6⟩ := isDigit_opening hc
    exact ⟨c, t, he, by simp [startKind, valueKind, h1, h2, h3, h4, h5, h6]⟩
  | str s => exact ⟨_, _, rfl, rfl⟩
  | arr vs => cases vs <;> exact ⟨_, _, rfl, rfl⟩
  | obj ms => cases ms <;> exact ⟨_, _, rfl, rfl⟩

theorem valueKind_eq {v w : Json} {r s : List Char} (h : render v ++ r = render w ++ s) :
    valueKind v = valueKind w := by
  obtain ⟨c, t, hc, hv⟩ := render_startKind v
  obtain ⟨d, u, hd, hw⟩ := render_startKind w
  rw [hc, hd] at h
  rw [← hv, ← hw, (List.cons.inj h).1]

theorem renderString_inj {a b : String} {r s : List Char}
    (h : renderString a ++ r = renderString b ++ s) : a = b ∧ r = s := by
  simp only [renderString, List.cons_append, List.append_assoc, List.nil_append, List.cons.injEq,
    true_and] at h
  have ha := lexString_esc a.toList r
  rw [h, lexString_esc b.toList s] at ha
  simp only [Option.some.injEq, Prod.mk.injEq, String.toList_inj] at ha
  exact ⟨ha.1.symm, ha.2.symm⟩

mutual
/-- A value is cut off a text in one way, where no number goes on. -/
theorem render_append_inj (v w : Json) : ∀ {r s : List Char}, NumEnd r → NumEnd s →
    render v ++ r = render w ++ s → v = w ∧ r = s := by
  intro r s hr hs h
  have hk := valueKind_eq h
  cases v with
  | null =>
    cases w with
    | null => exact ⟨rfl, List.append_cancel_left h⟩
    | bool b => cases b <;> simp [valueKind] at hk
    | _ => simp [valueKind] at hk
  | bool a =>
    cases w with
    | bool b =>
      cases a <;> cases b <;> simp [valueKind] at hk
      · exact ⟨rfl, List.append_cancel_left h⟩
      · exact ⟨rfl, List.append_cancel_left h⟩
    | _ => cases a <;> simp [valueKind] at hk
  | num m =>
    cases w with
    | num n =>
      have hm := scanNumber_render m hr
      simp only [render] at h
      rw [h, scanNumber_render n hs] at hm
      simp only [Option.some.injEq, Prod.mk.injEq] at hm
      exact ⟨by rw [hm.1], hm.2.symm⟩
    | bool b => cases b <;> simp [valueKind] at hk
    | _ => simp [valueKind] at hk
  | str a =>
    cases w with
    | str b =>
      obtain ⟨rfl, hrs⟩ := renderString_inj h
      exact ⟨rfl, hrs⟩
    | bool b => cases b <;> simp [valueKind] at hk
    | _ => simp [valueKind] at hk
  | arr vs =>
    cases w with
    | arr ws =>
      cases vs with
      | nil =>
        cases ws with
        | nil => exact ⟨rfl, List.append_cancel_left h⟩
        | cons w ws =>
          obtain ⟨c, t, hc, ho⟩ := render_head w
          simp only [render, hc, List.cons_append, List.cons.injEq, true_and] at h
          rw [← h.1] at ho
          cases ho
      | cons v vs =>
        cases ws with
        | nil =>
          obtain ⟨c, t, hc, ho⟩ := render_head v
          simp only [render, hc, List.cons_append, List.cons.injEq, true_and] at h
          rw [h.1] at ho
          cases ho
        | cons w ws =>
          simp only [render, List.cons_append, List.append_assoc, List.cons.injEq, true_and] at h
          obtain ⟨rfl, h'⟩ :=
            render_append_inj v w (numEnd_renderElems vs r) (numEnd_renderElems ws s) h
          obtain ⟨rfl, hrs⟩ := renderElems_append_inj vs ws hr hs h'
          exact ⟨rfl, hrs⟩
    | bool b => cases b <;> simp [valueKind] at hk
    | _ => simp [valueKind] at hk
  | obj ms =>
    cases w with
    | obj ns =>
      cases ms with
      | nil =>
        cases ns with
        | nil => exact ⟨rfl, List.append_cancel_left h⟩
        | cons n ns => simp [render, renderString] at h
      | cons m ms =>
        cases ns with
        | nil => simp [render, renderString] at h
        | cons n ns =>
          obtain ⟨k, v⟩ := m
          obtain ⟨l, w⟩ := n
          simp only [render, List.cons_append, List.append_assoc, List.cons.injEq, true_and] at h
          obtain ⟨rfl, hv⟩ := renderString_inj h
          obtain ⟨rfl, hms⟩ := render_append_inj v w (numEnd_renderMembers ms r)
            (numEnd_renderMembers ns s) (List.cons.inj hv).2
          obtain ⟨rfl, hrs⟩ := renderMembers_append_inj ms ns hr hs hms
          exact ⟨rfl, hrs⟩
    | bool b => cases b <;> simp [valueKind] at hk
    | _ => simp [valueKind] at hk

theorem renderElems_append_inj (vs ws : List Json) : ∀ {r s : List Char}, NumEnd r → NumEnd s →
    renderElems vs ++ r = renderElems ws ++ s → vs = ws ∧ r = s := by
  intro r s hr hs h
  cases vs with
  | nil =>
    cases ws with
    | nil => exact ⟨rfl, List.append_cancel_left h⟩
    | cons w ws => simp [renderElems] at h
  | cons v vs =>
    cases ws with
    | nil => simp [renderElems] at h
    | cons w ws =>
      simp only [renderElems, List.cons_append, List.append_assoc, List.cons.injEq, true_and] at h
      obtain ⟨rfl, h'⟩ :=
        render_append_inj v w (numEnd_renderElems vs r) (numEnd_renderElems ws s) h
      obtain ⟨rfl, hrs⟩ := renderElems_append_inj vs ws hr hs h'
      exact ⟨rfl, hrs⟩

theorem renderMembers_append_inj (ms ns : List (String × Json)) : ∀ {r s : List Char}, NumEnd r →
    NumEnd s → renderMembers ms ++ r = renderMembers ns ++ s → ms = ns ∧ r = s := by
  intro r s hr hs h
  cases ms with
  | nil =>
    cases ns with
    | nil => exact ⟨rfl, List.append_cancel_left h⟩
    | cons n ns => simp [renderMembers] at h
  | cons m ms =>
    cases ns with
    | nil => simp [renderMembers] at h
    | cons n ns =>
      obtain ⟨k, v⟩ := m
      obtain ⟨l, w⟩ := n
      simp only [renderMembers, List.cons_append, List.append_assoc, List.cons.injEq,
        true_and] at h
      obtain ⟨rfl, hv⟩ := renderString_inj h
      obtain ⟨rfl, hms⟩ := render_append_inj v w (numEnd_renderMembers ms r)
        (numEnd_renderMembers ns s) (List.cons.inj hv).2
      obtain ⟨rfl, hrs⟩ := renderMembers_append_inj ms ns hr hs hms
      exact ⟨rfl, hrs⟩
end

/-- A compact text determines its value, one out of range included. -/
theorem render_injective {v w : Json} (h : render v = render w) : v = w := by
  have hend : NumEnd [] := by rintro c hc; cases hc
  exact (render_append_inj v w hend hend (by rw [h])).1

end Json
end EgoBridge
