import Mathlib.Algebra.Order.BigOperators.Group.List
import EgoBridge.Json.Ordinary

/-!
# Json.FirstOffence

Where the strict parser stops.

What a parser has read does not depend on what follows, the next character apart. So at a name
that is met twice the text up to it can still be completed, to a strict document if the name is made
longer, and to a document in any case.

* `readsAt`     — a parser's answer, as an answer about the text it has read.
* `offendsAt`   — a name met twice, as a place in the text.
* `strict_json` — the strict parser accepts the documents in which no object has a name twice, and
  reports the name where that is what is wrong first.
-/

namespace EgoBridge
namespace Json

/-! ## Tokens -/

theorem skipWs_eq_cons {cs r : List Char} {c : Char} (h : skipWs cs = c :: r) :
    ∃ w, cs = w ++ c :: r ∧ ∀ x, skipWs (w ++ c :: x) = c :: x := by
  have hsplit : cs.takeWhile isWs ++ c :: r = cs := h ▸ List.takeWhile_append_dropWhile
  have hw : ∀ d ∈ cs.takeWhile isWs, isWs d = true := fun d hd => List.mem_takeWhile_imp hd
  have hc : isWs c = false := by
    have := List.head?_dropWhile_not isWs cs
    rw [show cs.dropWhile isWs = c :: r from h] at this
    simpa using this
  refine ⟨cs.takeWhile isWs, hsplit.symm, fun x => ?_⟩
  rw [skipWs, List.dropWhile_append_of_pos hw]
  exact skipWs_cons hc x

theorem lexString_replicate (n : Nat) (x : List Char) :
    lexString (List.replicate n 'a' ++ '"' :: x) = some (List.replicate n 'a', x) := by
  induction n with
  | zero => rfl
  | succ n ih =>
    have h := lexString_escChar 'a' (List.replicate n 'a' ++ '"' :: x)
    rw [ih] at h
    exact h

/-- A literal that is read, up to its closing quote; it may go on before that. -/
def ReadsString (cs s r : List Char) : Prop :=
  ∃ b, cs = b ++ '"' :: r ∧ ∀ n x, lexString (b ++ (List.replicate n 'a' ++ '"' :: x)) =
    some (s ++ List.replicate n 'a', x)

theorem ReadsString.escape {c : Char} {e cs s r : List Char}
    (he : ∀ x, lexString (e ++ x) = (lexString x).map fun p => (c :: p.1, p.2))
    (h : ReadsString cs s r) : ReadsString (e ++ cs) (c :: s) r := by
  obtain ⟨b, rfl, hb⟩ := h
  refine ⟨e ++ b, (List.append_assoc _ _ _).symm, fun n x => ?_⟩
  rw [List.append_assoc, he, hb]
  rfl

theorem lexString_eq_some {cs s r : List Char} (h : lexString cs = some (s, r)) :
    ReadsString cs s r := by
  fun_induction lexString cs generalizing s r with
  | case2 r' =>
    cases h
    exact ⟨[], rfl, lexString_replicate⟩
  | case6 a b c d n hn ht hl a' b' c' d' r' m hm ht' ih =>
    obtain ⟨p, hp, he⟩ := Option.map_eq_some_iff.mp h
    cases he
    refine (ih hp).escape (e := ['\\', 'u', a, b, c, d, '\\', 'u', a', b', c', d']) fun x => ?_
    simp only [List.cons_append, List.nil_append]
    rw [lexString]
    simp only [hn, ht, hl, hm, ht', if_true, Bool.false_eq_true, if_false]
  | case9 a b c d r' n hn ht hl ih =>
    obtain ⟨p, hp, he⟩ := Option.map_eq_some_iff.mp h
    cases he
    refine (ih hp).escape (e := ['\\', 'u', a, b, c, d]) fun x => ?_
    simp only [List.cons_append, List.nil_append]
    rw [lexString]
    simp only [hn, ht, hl, Bool.false_eq_true, if_false]
  | case11 e r' hu c hc ih =>
    obtain ⟨p, hp, he⟩ := Option.map_eq_some_iff.mp h
    cases he
    refine (ih hp).escape (e := ['\\', e]) fun x => ?_
    simp only [List.cons_append, List.nil_append]
    rw [lexString, hc]
    rintro a b c d r rfl
    cases hc
  | case13 c r' hq hu he hp ih =>
    obtain ⟨p, hp', he'⟩ := Option.map_eq_some_iff.mp h
    cases he'
    refine (ih hp').escape (e := [c]) fun x => ?_
    rw [List.singleton_append, lexString.eq_def]
    split
    · rename_i he; cases he
    · rename_i he; cases he; exact absurd rfl hq
    · rename_i he; cases he; exact absurd (.inl rfl) hp
    · rename_i he; cases he; exact absurd (.inl rfl) hp
    · rename_i he
      cases he
      rw [if_neg hp]
  | _ => cases h

/-! ## Numbers -/

/-- A scanner reads `c0`, whatever follows behind the next character. -/
def Scans {α : Type} (scan : List Char → Option (α × List Char)) (c0 : List Char) (a : α)
    (r : List Char) : Prop :=
  ∀ x, x.head? = r.head? → scan (c0 ++ x) = some (a, x)

theorem head?_append_congr {x r : List Char} (h : x.head? = r.head?) (c0 : List Char) :
    (c0 ++ x).head? = (c0 ++ r).head? := by
  rw [List.head?_append, List.head?_append, h]

theorem scanDigits_eq_some {cs r : List Char} {d : Digits} (h : scanDigits cs = some (d, r)) :
    cs = d.chars ++ r ∧ NoDigit r := by
  rw [scanDigits] at h
  split at h
  · cases h
  cases h
  refine ⟨List.takeWhile_append_dropWhile.symm, fun c hc => ?_⟩
  have := List.head?_dropWhile_not Char.isDigit cs
  rw [hc] at this
  simpa using this

theorem NoDigit.congr {x r : List Char} (h : NoDigit r) (hx : x.head? = r.head?) : NoDigit x :=
  fun c hc => h c (hx ▸ hc)

theorem scans_digits {cs r : List Char} {d : Digits} (h : scanDigits cs = some (d, r)) :
    cs = d.chars ++ r ∧ Scans scanDigits d.chars d r := by
  obtain ⟨rfl, hr⟩ := scanDigits_eq_some h
  exact ⟨rfl, fun x hx => scanDigits_append d (hr.congr hx)⟩

theorem scans_frac {cs r : List Char} {f : Option Digits} (h : scanFrac cs = some (f, r)) :
    ∃ c0, cs = c0 ++ r ∧ Scans scanFrac c0 f r := by
  unfold scanFrac at h
  split at h
  · obtain ⟨p, hp, he⟩ := Option.map_eq_some_iff.mp h
    cases he
    obtain ⟨rfl, hd⟩ := scans_digits hp
    refine ⟨'.' :: p.1.chars, rfl, fun x hx => ?_⟩
    rw [List.cons_append, scanFrac, hd x hx]
    rfl
  · rename_i hne
    cases h
    refine ⟨[], rfl, fun x hx => scanFrac_none fun c hc he => ?_⟩
    rw [List.nil_append, hx] at hc
    obtain ⟨r', rfl⟩ := List.head?_eq_some_iff.mp hc
    exact hne r' (he ▸ rfl)

theorem scans_exp {cs r : List Char} {e : Option (ExpMark × Digits)}
    (h : scanExp cs = some (e, r)) : ∃ c0, cs = c0 ++ r ∧ Scans scanExp c0 e r := by
  unfold scanExp at h
  split at h
  swap
  · cases h
    refine ⟨[], rfl, fun x hx => ?_⟩
    cases x with
    | nil => rfl
    | cons c x => cases hx
  rename_i c r'
  split at h
  · rename_i hc
    have hmark : c = if decide (c = 'E') then 'E' else 'e' := by
      rcases hc with rfl | rfl <;> decide
    -- a sign or none, and then the digits
    have hsome : ∀ {plus : Option Bool} {rest : List Char} {p : Digits × List Char},
        scanDigits rest = some p →
        c :: r' = (ExpMark.mk (c = 'E') plus).chars ++ rest →
        ∃ c0, c :: r' = c0 ++ p.2 ∧
          Scans scanExp c0 (some (⟨c = 'E', plus⟩, p.1)) p.2 := by
      intro plus rest p hp he
      obtain ⟨hrest, hr⟩ := scanDigits_eq_some hp
      refine ⟨(ExpMark.mk (c = 'E') plus).chars ++ p.1.chars, ?_, fun x hx => ?_⟩
      · rw [List.append_assoc, ← hrest, he]
      · rw [List.append_assoc]
        exact scanExp_some _ _ (hr.congr hx)
    split at h
    · obtain ⟨p, hp, he⟩ := Option.map_eq_some_iff.mp h
      cases he
      exact hsome hp (by simp only [ExpMark.chars, ← hmark]; rfl)
    · obtain ⟨p, hp, he⟩ := Option.map_eq_some_iff.mp h
      cases he
      exact hsome hp (by simp only [ExpMark.chars, ← hmark]; rfl)
    · obtain ⟨p, hp, he⟩ := Option.map_eq_some_iff.mp h
      cases he
      exact hsome hp (by simp only [ExpMark.chars, ← hmark]; rfl)
  · rename_i hc
    cases h
    refine ⟨[], rfl, fun x hx => ?_⟩
    obtain ⟨x', rfl⟩ := List.head?_eq_some_iff.mp hx
    rw [List.nil_append, scanExp.eq_def]
    dsimp only
    rw [if_neg hc]

theorem scans_unsigned {negative : Bool} {cs r : List Char} {n : Number}
    (h : scanUnsigned negative cs = some (n, r)) :
    ∃ c0, c0 ≠ [] ∧ cs = c0 ++ r ∧ Scans (scanUnsigned negative) c0 n r := by
  rw [scanUnsigned] at h
  cases hd : scanDigits cs with
  | none =>
    rw [hd] at h
    cases h
  | some p =>
    obtain ⟨int, r1⟩ := p
    rw [hd] at h
    dsimp only at h
    split at h
    swap
    · cases h
    rename_i hz
    cases hf : scanFrac r1 with
    | none =>
      rw [hf] at h
      cases h
    | some p =>
      obtain ⟨frac, r2⟩ := p
      rw [hf] at h
      dsimp only at h
      cases he : scanExp r2 with
      | none =>
        rw [he] at h
        cases h
      | some p =>
        obtain ⟨exp, r3⟩ := p
        rw [he] at h
        cases h
        obtain ⟨rfl, hd'⟩ := scans_digits hd
        obtain ⟨c1, rfl, hf'⟩ := scans_frac hf
        obtain ⟨c2, rfl, he'⟩ := scans_exp he
        refine ⟨int.chars ++ (c1 ++ c2), ?_, by simp only [List.append_assoc], fun x hx => ?_⟩
        · exact fun h => int.ne_nil (List.append_eq_nil_iff.mp h).1
        rw [List.append_assoc, List.append_assoc, scanUnsigned,
          hd' _ (head?_append_congr (head?_append_congr hx c2) c1)]
        dsimp only
        rw [dif_pos hz, hf' _ (head?_append_congr hx c2)]
        dsimp only
        rw [he' x hx]

theorem scans_number {cs r : List Char} {n : Number} (h : scanNumber cs = some (n, r)) :
    ∃ c0, c0 ≠ [] ∧ cs = c0 ++ r ∧ Scans scanNumber c0 n r := by
  unfold scanNumber at h
  split at h
  · obtain ⟨c0, -, rfl, hs⟩ := scans_unsigned h
    exact ⟨'-' :: c0, nofun, rfl, fun x hx => hs x hx⟩
  · rename_i hne
    obtain ⟨c0, h0, rfl, hs⟩ := scans_unsigned h
    refine ⟨c0, h0, rfl, fun x hx => ?_⟩
    have hx0 := hs x hx
    unfold scanNumber
    split
    · rename_i r' he
      have hh := head?_append_congr hx c0
      rw [he] at hh
      obtain ⟨r'', hr⟩ := List.head?_eq_some_iff.mp hh.symm
      exact (hne r'' hr).elim
    · exact hx0

/-! ## What a parser reads -/

/-- A parser reads `c0`, whatever follows behind the next character; it needs two units of fuel
for each character, and `extra`. -/
def Reads {α : Type} (p : Nat → List Char → Except ParseError (α × List Char)) (extra : Nat)
    (c0 : List Char) (a : α) (r : List Char) : Prop :=
  ∀ fuel x, 2 * c0.length + extra ≤ fuel → x.head? = r.head? → p fuel (c0 ++ x) = .ok (a, x)

def ReadsSome {α : Type} (p : Nat → List Char → Except ParseError (α × List Char)) (extra : Nat)
    (cs : List Char) (a : α) (r : List Char) : Prop :=
  ∃ c0, c0 ≠ [] ∧ cs = c0 ++ r ∧ Reads p extra c0 a r

structure ReadsAt (fuel : Nat) : Prop where
  value : ∀ {depth cs v r}, parseValue fuel depth cs = .ok (v, r) →
    ReadsSome (fun fuel => parseValue fuel depth) 0 cs v r
  array : ∀ {depth cs v r}, parseArray fuel depth cs = .ok (v, r) →
    ReadsSome (fun fuel => parseArray fuel depth) 1 cs v r
  elems : ∀ {depth cs vs r}, parseElems fuel depth cs = .ok (vs, r) →
    ReadsSome (fun fuel => parseElems fuel depth) 0 cs vs r
  object : ∀ {depth cs v r}, parseObject fuel depth cs = .ok (v, r) →
    ReadsSome (fun fuel => parseObject fuel depth) 1 cs v r
  member : ∀ {depth seen cs m r}, parseMember fuel depth seen cs = .ok (m, r) →
    ReadsSome (fun fuel => parseMember fuel depth seen) 0 cs m r
  members : ∀ {depth seen cs ms r}, parseMembers fuel depth seen cs = .ok (ms, r) →
    ReadsSome (fun fuel => parseMembers fuel depth seen) 0 cs ms r

theorem except_bind_ok {α β : Type} {x : Except ParseError α} {f : α → Except ParseError β}
    {b : β} (h : x.bind f = .ok b) : ∃ a, x = .ok a ∧ f a = .ok b := by
  cases x with
  | error e => cases h
  | ok a => exact ⟨a, rfl, h⟩

theorem except_map_ok {α β : Type} {x : Except ParseError α} {f : α → β} {b : β}
    (h : x.map f = .ok b) : ∃ a, x = .ok a ∧ f a = b := by
  cases x with
  | error e => cases h
  | ok a => exact ⟨a, rfl, Except.ok.inj h⟩

/-- Some text before what is read. -/
theorem ReadsSome.after {α β : Type} {p : Nat → List Char → Except ParseError (α × List Char)}
    {q : Nat → List Char → Except ParseError (β × List Char)} {k k' : Nat} {cs r : List Char}
    {a : α} (h : ReadsSome p k cs a r) (b : β) (w : List Char) (hk : k + 1 ≤ 2 * w.length + k')
    (hq : ∀ fuel x y, p fuel x = .ok (a, y) → q (fuel + 1) (w ++ x) = .ok (b, y)) :
    ReadsSome q k' (w ++ cs) b r := by
  obtain ⟨c0, h0, rfl, hr⟩ := h
  refine ⟨w ++ c0, fun h => h0 (List.append_eq_nil_iff.mp h).2, (List.append_assoc _ _ _).symm,
    fun fuel x hf hx => ?_⟩
  rw [List.length_append] at hf
  obtain ⟨fuel, rfl⟩ := Nat.exists_eq_add_of_le' (show 1 ≤ fuel by omega)
  rw [List.append_assoc]
  exact hq fuel _ x (hr fuel x (by omega) hx)

/-- Two parts, one after the other. -/
theorem ReadsSome.pair {α β : Type} {p : Nat → List Char → Except ParseError (α × List Char)}
    {q : Nat → List Char → Except ParseError (β × List Char)} {cs r r' : List Char} {a : α} {b : β}
    (h : ReadsSome p 0 cs a r) (h' : ReadsSome q 0 r b r') :
    ReadsSome (fun fuel x => (p fuel x).bind fun s => (q fuel s.2).map fun t => ((s.1, t.1), t.2)) 0
      cs (a, b) r' := by
  obtain ⟨c0, h0, rfl, hr⟩ := h
  obtain ⟨c1, h1, rfl, hr'⟩ := h'
  refine ⟨c0 ++ c1, fun h => h0 (List.append_eq_nil_iff.mp h).1, (List.append_assoc _ _ _).symm,
    fun fuel x hf hx => ?_⟩
  rw [List.length_append] at hf
  dsimp only
  rw [List.append_assoc, hr fuel _ (by omega) (head?_append_congr hx c1)]
  dsimp only [Except.bind]
  rw [hr' fuel x (by omega) hx]
  rfl

/-! ## No closing bracket begins a value -/

theorem parseValue_bracket {depth : Nat} {cs : List Char} (h : (skipWs cs).head? = some ']')
    (fuel : Nat) : parseValue fuel depth cs = .error .invalid := by
  cases fuel with
  | zero => rw [parseValue]
  | succ fuel =>
    obtain ⟨r, hr⟩ := List.head?_eq_some_iff.mp h
    rw [parseValue, hr]
    rfl

theorem parseMember_brace {depth : Nat} {seen : List String} {cs : List Char}
    (h : (skipWs cs).head? = some '}') (fuel : Nat) :
    parseMember fuel depth seen cs = .error .invalid := by
  cases fuel with
  | zero => rw [parseMember]
  | succ fuel =>
    obtain ⟨r, hr⟩ := List.head?_eq_some_iff.mp h
    rw [parseMember, hr]
    rfl

/-! ## Every parser reads what it consumes -/

/-- A token is read, and nothing else. -/
theorem readsSome_token {α : Type} {p : Nat → List Char → Except ParseError (α × List Char)}
    {k : Nat} {w r : List Char} {c : Char} {a : α} (c0 : List Char)
    (h : ∀ fuel x, x.head? = r.head? → p (fuel + 1) (w ++ c :: (c0 ++ x)) = .ok (a, x)) :
    ReadsSome p k (w ++ c :: (c0 ++ r)) a r := by
  refine ⟨w ++ c :: c0, by simp, by simp, fun fuel x hf hx => ?_⟩
  rw [List.length_append, List.length_cons] at hf
  obtain ⟨fuel, rfl⟩ := Nat.exists_eq_add_of_le' (show 1 ≤ fuel by omega)
  rw [List.append_assoc, List.cons_append]
  exact h fuel x hx

theorem literal_ok {text : List Char} {v w : Json} {cs r : List Char}
    (h : literal text v cs = .ok (w, r)) :
    cs = text ++ r ∧ ∀ x, literal text v (text ++ x) = .ok (w, x) := by
  rw [literal] at h
  split at h
  · rename_i ht
    cases h
    obtain ⟨r, rfl⟩ := List.isPrefixOf_iff_prefix.mp ht
    rw [List.drop_left]
    refine ⟨rfl, fun x => ?_⟩
    rw [literal, if_pos (List.isPrefixOf_iff_prefix.mpr (List.prefix_append text x)),
      List.drop_left]
  · cases h

theorem ReadsAt.succ_value {fuel depth : Nat} (ih : ReadsAt fuel) {cs r : List Char} {v : Json}
    (h : parseValue (fuel + 1) depth cs = .ok (v, r)) :
    ReadsSome (fun fuel => parseValue fuel depth) 0 cs v r := by
  rw [parseValue] at h
  cases hs : skipWs cs with
  | nil =>
    rw [hs] at h
    cases h
  | cons c rest =>
    rw [hs] at h
    dsimp only at h
    obtain ⟨w, rfl, hw⟩ := skipWs_eq_cons hs
    split at h
    · rename_i hc
      cases hl : lexString rest with
      | none =>
        rw [hl] at h
        cases h
      | some p =>
        rw [hl] at h
        cases h
        obtain ⟨b, rfl, hb⟩ := lexString_eq_some hl
        rw [show b ++ '"' :: p.2 = (b ++ ['"']) ++ p.2 by simp]
        refine readsSome_token _ fun fuel x _ => ?_
        have hb0 := hb 0 x
        simp only [List.replicate_zero, List.nil_append, List.append_nil] at hb0
        rw [parseValue, hw, List.append_assoc, List.singleton_append]
        dsimp only
        rw [if_pos hc, hb0]
    rename_i hq
    split at h
    · rename_i hc
      split at h
      · cases h
      rename_i hd
      rw [show w ++ c :: rest = (w ++ [c]) ++ rest by simp]
      refine (ih.array h).after v (w ++ [c])
        (by rw [List.length_append, List.length_singleton]; omega) fun fuel x y hx => ?_
      rw [List.append_assoc, List.singleton_append, parseValue, hw]
      dsimp only
      rw [if_neg hq, if_pos hc, if_neg hd, hx]
    rename_i ha
    split at h
    · rename_i hc
      split at h
      · cases h
      rename_i hd
      rw [show w ++ c :: rest = (w ++ [c]) ++ rest by simp]
      refine (ih.object h).after v (w ++ [c])
        (by rw [List.length_append, List.length_singleton]; omega) fun fuel x y hx => ?_
      rw [List.append_assoc, List.singleton_append, parseValue, hw]
      dsimp only
      rw [if_neg hq, if_neg ha, if_pos hc, if_neg hd, hx]
    rename_i ho
    split at h
    · rename_i hc
      obtain ⟨rfl, hl⟩ := literal_ok h
      refine readsSome_token _ fun fuel x _ => ?_
      rw [parseValue, hw]
      dsimp only
      rw [if_neg hq, if_neg ha, if_neg ho, if_pos hc, hl]
    rename_i hn
    split at h
    · rename_i hc
      obtain ⟨rfl, hl⟩ := literal_ok h
      refine readsSome_token _ fun fuel x _ => ?_
      rw [parseValue, hw]
      dsimp only
      rw [if_neg hq, if_neg ha, if_neg ho, if_neg hn, if_pos hc, hl]
    rename_i ht
    split at h
    · rename_i hc
      obtain ⟨rfl, hl⟩ := literal_ok h
      refine readsSome_token _ fun fuel x _ => ?_
      rw [parseValue, hw]
      dsimp only
      rw [if_neg hq, if_neg ha, if_neg ho, if_neg hn, if_neg ht, if_pos hc, hl]
    rename_i hf
    cases hnum : scanNumber (c :: rest) with
    | none =>
      rw [hnum] at h
      cases h
    | some p =>
      rw [hnum] at h
      dsimp only at h
      split at h
      swap
      · cases h
      rename_i hr
      cases h
      obtain ⟨c0, h0, he, hx⟩ := scans_number hnum
      obtain ⟨d, c0, rfl⟩ := List.exists_cons_of_ne_nil h0
      cases he
      refine readsSome_token _ fun fuel x hx' => ?_
      rw [parseValue, hw]
      dsimp only
      rw [if_neg hq, if_neg ha, if_neg ho, if_neg hn, if_neg ht, if_neg hf]
      have hx0 := hx x hx'
      rw [List.cons_append] at hx0
      rw [hx0]
      exact if_pos hr

theorem ReadsAt.succ_array {fuel depth : Nat} (ih : ReadsAt fuel) {cs r : List Char} {v : Json}
    (h : parseArray (fuel + 1) depth cs = .ok (v, r)) :
    ReadsSome (fun fuel => parseArray fuel depth) 1 cs v r := by
  rw [parseArray_succ] at h
  split at h
  · rename_i hc
    cases h
    obtain ⟨r, hr⟩ := List.head?_eq_some_iff.mp hc
    obtain ⟨w, rfl, hw⟩ := skipWs_eq_cons hr
    rw [hr, List.tail_cons]
    refine readsSome_token [] fun fuel x _ => ?_
    rw [List.nil_append, parseArray_succ, hw]
    rfl
  · obtain ⟨⟨v1, r1⟩, hv, h⟩ := except_bind_ok h
    obtain ⟨⟨vs, r2⟩, hvs, h⟩ := except_map_ok h
    cases h
    refine ((ih.value hv).pair (ih.elems hvs)).after _ [] (by simp) fun fuel x y hx => ?_
    obtain ⟨⟨v1', r1'⟩, hv', hx⟩ := except_bind_ok hx
    obtain ⟨⟨vs', r2'⟩, hvs', hx⟩ := except_map_ok hx
    cases hx
    rw [List.nil_append, parseArray_succ, if_neg, hv']
    · dsimp only [Except.bind]
      rw [hvs']
      rfl
    · intro hb
      rw [parseValue_bracket hb] at hv'
      cases hv'

theorem ReadsAt.succ_elems {fuel depth : Nat} (ih : ReadsAt fuel) {cs r : List Char}
    {vs : List Json} (h : parseElems (fuel + 1) depth cs = .ok (vs, r)) :
    ReadsSome (fun fuel => parseElems fuel depth) 0 cs vs r := by
  rw [parseElems_succ] at h
  cases hs : skipWs cs with
  | nil =>
    rw [hs] at h
    cases h
  | cons c rest =>
    rw [hs] at h
    dsimp only at h
    obtain ⟨w, rfl, hw⟩ := skipWs_eq_cons hs
    split at h
    · rename_i hc
      cases h
      refine readsSome_token [] fun fuel x _ => ?_
      rw [List.nil_append, parseElems_succ, hw]
      dsimp only
      rw [if_pos hc]
    rename_i hb
    split at h
    · rename_i hc
      obtain ⟨⟨v1, r1⟩, hv, h⟩ := except_bind_ok h
      obtain ⟨⟨vs, r2⟩, hvs, h⟩ := except_map_ok h
      cases h
      rw [show w ++ c :: rest = (w ++ [c]) ++ rest by simp]
      refine ((ih.value hv).pair (ih.elems hvs)).after _ (w ++ [c]) (by simp; omega)
        fun fuel x y hx => ?_
      obtain ⟨⟨v1', r1'⟩, hv', hx⟩ := except_bind_ok hx
      obtain ⟨⟨vs', r2'⟩, hvs', hx⟩ := except_map_ok hx
      cases hx
      rw [List.append_assoc, List.singleton_append, parseElems_succ, hw]
      dsimp only
      rw [if_neg hb, if_pos hc, hv']
      dsimp only [Except.bind]
      rw [hvs']
      rfl
    · cases h

theorem ReadsAt.succ_object {fuel depth : Nat} (ih : ReadsAt fuel) {cs r : List Char} {v : Json}
    (h : parseObject (fuel + 1) depth cs = .ok (v, r)) :
    ReadsSome (fun fuel => parseObject fuel depth) 1 cs v r := by
  rw [parseObject_succ] at h
  split at h
  · rename_i hc
    cases h
    obtain ⟨r, hr⟩ := List.head?_eq_some_iff.mp hc
    obtain ⟨w, rfl, hw⟩ := skipWs_eq_cons hr
    rw [hr, List.tail_cons]
    refine readsSome_token [] fun fuel x _ => ?_
    rw [List.nil_append, parseObject_succ, hw]
    rfl
  · obtain ⟨⟨m, r1⟩, hm, h⟩ := except_bind_ok h
    obtain ⟨⟨ms, r2⟩, hms, h⟩ := except_map_ok h
    cases h
    refine ((ih.member hm).pair (ih.members hms)).after _ [] (by simp) fun fuel x y hx => ?_
    obtain ⟨⟨m', r1'⟩, hm', hx⟩ := except_bind_ok hx
    obtain ⟨⟨ms', r2'⟩, hms', hx⟩ := except_map_ok hx
    cases hx
    rw [List.nil_append, parseObject_succ, if_neg, hm']
    · dsimp only [Except.bind]
      rw [hms']
      rfl
    · intro hb
      rw [parseMember_brace hb] at hm'
      cases hm'

theorem ReadsAt.succ_member {fuel depth : Nat} (ih : ReadsAt fuel) {seen : List String}
    {cs r : List Char} {m : String × Json}
    (h : parseMember (fuel + 1) depth seen cs = .ok (m, r)) :
    ReadsSome (fun fuel => parseMember fuel depth seen) 0 cs m r := by
  rw [parseMember_succ] at h
  cases hs : skipWs cs with
  | nil =>
    rw [hs] at h
    cases h
  | cons c rest =>
    rw [hs] at h
    dsimp only at h
    obtain ⟨w, rfl, hw⟩ := skipWs_eq_cons hs
    split at h
    swap
    · cases h
    rename_i hc
    cases hl : lexString rest with
    | none =>
      rw [hl] at h
      cases h
    | some p =>
      obtain ⟨k, r1⟩ := p
      rw [hl] at h
      dsimp only at h
      split at h
      · cases h
      rename_i hk
      cases hs1 : skipWs r1 with
      | nil =>
        rw [hs1] at h
        cases h
      | cons c1 rest1 =>
        rw [hs1] at h
        dsimp only at h
        split at h
        swap
        · cases h
        rename_i hc1
        obtain ⟨⟨v, r2⟩, hv, h⟩ := except_map_ok h
        cases h
        obtain ⟨b, rfl, hb⟩ := lexString_eq_some hl
        obtain ⟨w1, rfl, hw1⟩ := skipWs_eq_cons hs1
        rw [show w ++ c :: (b ++ '"' :: (w1 ++ c1 :: rest1)) =
          (w ++ c :: (b ++ '"' :: (w1 ++ [c1]))) ++ rest1 by simp]
        refine (ih.value hv).after _ _ (by simp; omega) fun fuel x y hx => ?_
        have hb0 := hb 0 (w1 ++ c1 :: x)
        simp only [List.replicate_zero, List.nil_append, List.append_nil] at hb0
        rw [show (w ++ c :: (b ++ '"' :: (w1 ++ [c1]))) ++ x =
          w ++ c :: (b ++ '"' :: (w1 ++ c1 :: x)) by simp, parseMember_succ, hw]
        dsimp only
        rw [if_pos hc, hb0]
        dsimp only
        rw [if_neg hk, hw1]
        dsimp only
        rw [if_pos hc1, hx]
        rfl

theorem ReadsAt.succ_members {fuel depth : Nat} (ih : ReadsAt fuel) {seen : List String}
    {cs r : List Char} {ms : List (String × Json)}
    (h : parseMembers (fuel + 1) depth seen cs = .ok (ms, r)) :
    ReadsSome (fun fuel => parseMembers fuel depth seen) 0 cs ms r := by
  rw [parseMembers_succ] at h
  cases hs : skipWs cs with
  | nil =>
    rw [hs] at h
    cases h
  | cons c rest =>
    rw [hs] at h
    dsimp only at h
    obtain ⟨w, rfl, hw⟩ := skipWs_eq_cons hs
    split at h
    · rename_i hc
      cases h
      refine readsSome_token [] fun fuel x _ => ?_
      rw [List.nil_append, parseMembers_succ, hw]
      dsimp only
      rw [if_pos hc]
    rename_i hb
    split at h
    · rename_i hc
      obtain ⟨⟨m, r1⟩, hm, h⟩ := except_bind_ok h
      obtain ⟨⟨ms, r2⟩, hms, h⟩ := except_map_ok h
      cases h
      rw [show w ++ c :: rest = (w ++ [c]) ++ rest by simp]
      refine ((ih.member hm).pair (ih.members hms)).after _ (w ++ [c]) (by simp; omega)
        fun fuel x y hx => ?_
      obtain ⟨⟨m', r1'⟩, hm', hx⟩ := except_bind_ok hx
      obtain ⟨⟨ms', r2'⟩, hms', hx⟩ := except_map_ok hx
      cases hx
      rw [List.append_assoc, List.singleton_append, parseMembers_succ, hw]
      dsimp only
      rw [if_neg hb, if_pos hc, hm']
      dsimp only [Except.bind]
      rw [hms']
      rfl
    · cases h

theorem readsAt (fuel : Nat) : ReadsAt fuel := by
  induction fuel with
  | zero =>
    refine ⟨?_, ?_, ?_, ?_, ?_, ?_⟩ <;> intros <;> rename_i h
    · rw [parseValue] at h
      cases h
    · rw [parseArray] at h
      cases h
    · rw [parseElems] at h
      cases h
    · rw [parseObject] at h
      cases h
    · rw [parseMember] at h
      cases h
    · rw [parseMembers] at h
      cases h
  | succ fuel ih =>
    exact ⟨ih.succ_value, ih.succ_array, ih.succ_elems, ih.succ_object, ih.succ_member,
      ih.succ_members⟩

/-! ## A name met twice -/

/-- At the quote that ends a name after `p`, the strict parser stops. With a longer name the text
goes on to a value that is strict; with this name it goes on to a value. -/
structure Offence {α : Type} (strict : Nat → List Char → Except ParseError (α × List Char))
    (ordinary : Nat → List Char → Option (α × List Char)) (extra : Nat) (p : List Char) : Prop where
  stops : ∀ fuel t, 2 * (p.length + 1) + extra ≤ fuel →
    ∃ key, strict fuel (p ++ '"' :: t) = .error (.duplicateKey key)
  strict_goes_on : ∃ t a, ∀ fuel x, 2 * (p.length + 1 + t.length) + extra ≤ fuel →
    strict fuel (p ++ (t ++ x)) = .ok (a, x)
  goes_on : ∃ t a, ∀ fuel x, 2 * (p.length + 1 + t.length) + extra ≤ fuel →
    ordinary fuel (p ++ '"' :: (t ++ x)) = some (a, x)

def Offends {α : Type} (strict : Nat → List Char → Except ParseError (α × List Char))
    (ordinary : Nat → List Char → Option (α × List Char)) (extra : Nat) (cs : List Char) : Prop :=
  ∃ p q, p ≠ [] ∧ cs = p ++ '"' :: q ∧ Offence strict ordinary extra p

/-- The offence of a part: `w` is read before it, and `close` is what the whole still lacks. -/
theorem Offends.within {α β : Type} {strict : Nat → List Char → Except ParseError (α × List Char)}
    {ordinary : Nat → List Char → Option (α × List Char)}
    {strict' : Nat → List Char → Except ParseError (β × List Char)}
    {ordinary' : Nat → List Char → Option (β × List Char)} {k k' : Nat} {cs : List Char}
    (h : Offends strict ordinary k cs) (w close : List Char) (f : α → β)
    (hk : k + 1 ≤ 2 * w.length + k')
    (hstops : ∀ fuel x key, 2 * w.length + k' < fuel → x.head? = cs.head? →
      strict fuel x = .error (.duplicateKey key) →
      strict' (fuel + 1) (w ++ x) = .error (.duplicateKey key))
    (hstrict : ∀ fuel x a y, 2 * w.length + k' < fuel → x.head? = cs.head? →
      strict fuel x = .ok (a, close ++ y) → strict' (fuel + 1) (w ++ x) = .ok (f a, y))
    (hordinary : ∀ fuel x a y, 2 * w.length + k' < fuel → x.head? = cs.head? →
      ordinary fuel x = some (a, close ++ y) → ordinary' (fuel + 1) (w ++ x) = some (f a, y)) :
    Offends strict' ordinary' k' (w ++ cs) := by
  obtain ⟨p, q, hp, rfl, ho⟩ := h
  have hhead : ∀ x, (p ++ x).head? = (p ++ '"' :: q).head? := by
    intro x
    obtain ⟨c, p', rfl⟩ := List.exists_cons_of_ne_nil hp
    rfl
  refine ⟨w ++ p, q, fun h => hp (List.append_eq_nil_iff.mp h).2,
    (List.append_assoc _ _ _).symm, ?_, ?_, ?_⟩
  · intro fuel t hf
    rw [List.length_append] at hf
    obtain ⟨fuel, rfl⟩ := Nat.exists_eq_add_of_le' (show 1 ≤ fuel by omega)
    obtain ⟨key, hkey⟩ := ho.stops fuel t (by omega)
    rw [List.append_assoc]
    exact ⟨key, hstops fuel _ key (by omega) (hhead _) hkey⟩
  · obtain ⟨t, a, ht⟩ := ho.strict_goes_on
    refine ⟨t ++ close, f a, fun fuel x hf => ?_⟩
    rw [List.length_append, List.length_append] at hf
    obtain ⟨fuel, rfl⟩ := Nat.exists_eq_add_of_le' (show 1 ≤ fuel by omega)
    rw [List.append_assoc, List.append_assoc]
    exact hstrict fuel _ a x (by omega) (hhead _) (ht fuel (close ++ x) (by omega))
  · obtain ⟨t, a, ht⟩ := ho.goes_on
    refine ⟨t ++ close, f a, fun fuel x hf => ?_⟩
    rw [List.length_append, List.length_append] at hf
    obtain ⟨fuel, rfl⟩ := Nat.exists_eq_add_of_le' (show 1 ≤ fuel by omega)
    rw [List.append_assoc, List.append_assoc]
    exact hordinary fuel _ a x (by omega) (hhead _) (ht fuel (close ++ x) (by omega))

structure OffendsAt (fuel : Nat) : Prop where
  value : ∀ {depth cs key}, parseValue fuel depth cs = .error (.duplicateKey key) →
    Offends (fun fuel => parseValue fuel depth) (fun fuel => Ordinary.parseValue fuel depth) 0 cs
  array : ∀ {depth cs key}, parseArray fuel depth cs = .error (.duplicateKey key) →
    Offends (fun fuel => parseArray fuel depth) (fun fuel => Ordinary.parseArray fuel depth) 1 cs
  elems : ∀ {depth cs key}, parseElems fuel depth cs = .error (.duplicateKey key) →
    Offends (fun fuel => parseElems fuel depth) (fun fuel => Ordinary.parseElems fuel depth) 0 cs
  object : ∀ {depth cs key}, parseObject fuel depth cs = .error (.duplicateKey key) →
    Offends (fun fuel => parseObject fuel depth) (fun fuel => Ordinary.parseObject fuel depth) 1 cs
  member : ∀ {depth seen cs key}, parseMember fuel depth seen cs = .error (.duplicateKey key) →
    Offends (fun fuel => parseMember fuel depth seen) (fun fuel => Ordinary.parseMember fuel depth)
      0 cs
  members : ∀ {depth seen cs key}, parseMembers fuel depth seen cs = .error (.duplicateKey key) →
    Offends (fun fuel => parseMembers fuel depth seen)
      (fun fuel => Ordinary.parseMembers fuel depth) 0 cs

theorem except_bind_error {α β : Type} {x : Except ParseError α} {f : α → Except ParseError β}
    {e : ParseError} (h : x.bind f = .error e) :
    x = .error e ∨ ∃ a, x = .ok a ∧ f a = .error e := by
  cases x with
  | error e' =>
    cases h
    exact .inl rfl
  | ok a => exact .inr ⟨a, rfl, h⟩

theorem except_map_error {α β : Type} {x : Except ParseError α} {f : α → β} {e : ParseError}
    (h : x.map f = .error e) : x = .error e := by
  cases x with
  | error e' =>
    cases h
    rfl
  | ok a => cases h

theorem Follows.eq_some {α : Type} {good : α → Prop} {o : Option α} {x : Except ParseError α}
    {a : α} (h : Follows good o x) (hx : x = .ok a) : o = some a := by
  subst hx
  cases h
  rfl

theorem literal_not_duplicate {text : List Char} {v : Json} {cs : List Char} {key : String} :
    literal text v cs ≠ .error (.duplicateKey key) := by
  rw [literal]
  split <;> exact nofun

theorem OffendsAt.succ_value {fuel depth : Nat} (ih : OffendsAt fuel) {cs : List Char}
    {key : String} (h : parseValue (fuel + 1) depth cs = .error (.duplicateKey key)) :
    Offends (fun fuel => parseValue fuel depth) (fun fuel => Ordinary.parseValue fuel depth) 0
      cs := by
  rw [parseValue] at h
  cases hs : skipWs cs with
  | nil =>
    rw [hs] at h
    cases h
  | cons c rest =>
    rw [hs] at h
    dsimp only at h
    obtain ⟨w, rfl, hw⟩ := skipWs_eq_cons hs
    rw [show w ++ c :: rest = (w ++ [c]) ++ rest by simp]
    split at h
    · cases hl : lexString rest with
      | none =>
        rw [hl] at h
        cases h
      | some p =>
        rw [hl] at h
        cases h
    rename_i hq
    split at h
    · rename_i hc
      split at h
      · cases h
      rename_i hd
      refine (ih.array h).within (w ++ [c]) [] id
        (by rw [List.length_append, List.length_singleton]; omega) ?_ ?_ ?_
      · intro fuel x key _ _ hx
        rw [List.append_assoc, List.singleton_append, parseValue, hw]
        dsimp only
        rw [if_neg hq, if_pos hc, if_neg hd, hx]
      · intro fuel x a y _ _ hx
        rw [List.append_assoc, List.singleton_append, parseValue, hw]
        dsimp only
        rw [if_neg hq, if_pos hc, if_neg hd, hx]
        rfl
      · intro fuel x a y _ _ hx
        rw [List.append_assoc, List.singleton_append, Ordinary.parseValue, hw]
        dsimp only
        rw [if_neg hq, if_pos hc, if_neg hd, hx]
        rfl
    rename_i ha
    split at h
    · rename_i hc
      split at h
      · cases h
      rename_i hd
      refine (ih.object h).within (w ++ [c]) [] id
        (by rw [List.length_append, List.length_singleton]; omega) ?_ ?_ ?_
      · intro fuel x key _ _ hx
        rw [List.append_assoc, List.singleton_append, parseValue, hw]
        dsimp only
        rw [if_neg hq, if_neg ha, if_pos hc, if_neg hd, hx]
      · intro fuel x a y _ _ hx
        rw [List.append_assoc, List.singleton_append, parseValue, hw]
        dsimp only
        rw [if_neg hq, if_neg ha, if_pos hc, if_neg hd, hx]
        rfl
      · intro fuel x a y _ _ hx
        rw [List.append_assoc, List.singleton_append, Ordinary.parseValue, hw]
        dsimp only
        rw [if_neg hq, if_neg ha, if_pos hc, if_neg hd, hx]
        rfl
    split at h
    · exact (literal_not_duplicate h).elim
    split at h
    · exact (literal_not_duplicate h).elim
    split at h
    · exact (literal_not_duplicate h).elim
    · cases hn : scanNumber (c :: rest) with
      | none =>
        rw [hn] at h
        cases h
      | some p =>
        rw [hn] at h
        dsimp only at h
        split at h <;> cases h

/-! What closes a part. -/

theorem parseElems_close {fuel : Nat} (h : 0 < fuel) (depth : Nat) (y : List Char) :
    parseElems fuel depth (']' :: y) = .ok ([], y) ∧
      Ordinary.parseElems fuel depth (']' :: y) = some ([], y) := by
  obtain ⟨fuel, rfl⟩ := Nat.exists_eq_add_of_le' (show 1 ≤ fuel by omega)
  rw [parseElems, Ordinary.parseElems]
  exact ⟨rfl, rfl⟩

theorem parseMembers_close {fuel : Nat} (h : 0 < fuel) (depth : Nat) (seen : List String)
    (y : List Char) :
    parseMembers fuel depth seen ('}' :: y) = .ok ([], y) ∧
      Ordinary.parseMembers fuel depth ('}' :: y) = some ([], y) := by
  obtain ⟨fuel, rfl⟩ := Nat.exists_eq_add_of_le' (show 1 ≤ fuel by omega)
  rw [parseMembers, Ordinary.parseMembers]
  exact ⟨rfl, rfl⟩

theorem Ordinary.parseValue_bracket {depth : Nat} {cs : List Char}
    (h : (skipWs cs).head? = some ']') (fuel : Nat) : Ordinary.parseValue fuel depth cs = none := by
  cases fuel with
  | zero => rw [Ordinary.parseValue]
  | succ fuel =>
    obtain ⟨r, hr⟩ := List.head?_eq_some_iff.mp h
    rw [Ordinary.parseValue, hr]
    rfl

theorem Ordinary.parseMember_brace {depth : Nat} {cs : List Char}
    (h : (skipWs cs).head? = some '}') (fuel : Nat) :
    Ordinary.parseMember fuel depth cs = none := by
  cases fuel with
  | zero => rw [Ordinary.parseMember]
  | succ fuel =>
    obtain ⟨r, hr⟩ := List.head?_eq_some_iff.mp h
    rw [Ordinary.parseMember, hr]
    rfl

theorem OffendsAt.succ_array {fuel depth : Nat} (ih : OffendsAt fuel) {cs : List Char}
    {key : String} (h : parseArray (fuel + 1) depth cs = .error (.duplicateKey key)) :
    Offends (fun fuel => parseArray fuel depth) (fun fuel => Ordinary.parseArray fuel depth) 1
      cs := by
  have hfirst : ∀ {fuel cs b}, parseValue fuel depth cs = b → b ≠ .error .invalid →
      (skipWs cs).head? ≠ some ']' :=
    fun he hb hx => hb (he.symm.trans (parseValue_bracket hx _))
  rw [parseArray_succ] at h
  split at h
  · cases h
  rcases except_bind_error h with h | ⟨⟨v, r⟩, hv, h'⟩
  · -- in the first element
    refine (ih.value h).within [] [']'] (fun v => .arr [v]) (by simp) ?_ ?_ ?_
    · intro fuel x key _ _ hx
      rw [List.nil_append, parseArray_succ, if_neg (hfirst hx (by simp)), hx]
      rfl
    · intro fuel x a y hf _ hx
      rw [List.nil_append, parseArray_succ, if_neg (hfirst hx (by simp)), hx]
      dsimp only [Except.bind]
      rw [List.singleton_append, (parseElems_close (by omega) depth y).1]
      rfl
    · intro fuel x a y hf _ hx
      rw [List.nil_append, Ordinary.parseArray, if_neg, hx]
      · rw [Option.bind_some, List.singleton_append, (parseElems_close (by omega) depth y).2]
        rfl
      · intro hb
        rw [Ordinary.parseValue_bracket hb] at hx
        cases hx
  · -- behind it
    obtain ⟨c0, h0, rfl, hr⟩ := (readsAt fuel).value hv
    have hr : ∀ fuel x, 2 * c0.length ≤ fuel → x.head? = r.head? →
        parseValue fuel depth (c0 ++ x) = .ok (v, x) := hr
    refine (ih.elems (except_map_error h')).within c0 [] (fun vs => .arr (v :: vs)) ?_ ?_ ?_ ?_
    · have := List.length_pos_of_ne_nil h0
      omega
    · intro fuel x key hf hh hx
      have hv := hr fuel x (by omega) hh
      rw [parseArray_succ, if_neg (hfirst hv (by simp)), hv]
      dsimp only [Except.bind]
      rw [hx]
      rfl
    · intro fuel x a y hf hh hx
      have hv := hr fuel x (by omega) hh
      rw [parseArray_succ, if_neg (hfirst hv (by simp)), hv]
      dsimp only [Except.bind]
      rw [hx]
      rfl
    · intro fuel x a y hf hh hx
      have hv := hr fuel x (by omega) hh
      rw [Ordinary.parseArray, if_neg (hfirst hv (by simp)),
        ((followsAt fuel).value depth (c0 ++ x)).eq_some hv, Option.bind_some, hx]
      rfl

theorem OffendsAt.succ_elems {fuel depth : Nat} (ih : OffendsAt fuel) {cs : List Char}
    {key : String} (h : parseElems (fuel + 1) depth cs = .error (.duplicateKey key)) :
    Offends (fun fuel => parseElems fuel depth) (fun fuel => Ordinary.parseElems fuel depth) 0
      cs := by
  rw [parseElems_succ] at h
  cases hs : skipWs cs with
  | nil =>
    rw [hs] at h
    cases h
  | cons c rest =>
    rw [hs] at h
    dsimp only at h
    obtain ⟨w, rfl, hw⟩ := skipWs_eq_cons hs
    split at h
    · cases h
    rename_i hb
    split at h
    swap
    · cases h
    rename_i hc
    rcases except_bind_error h with h | ⟨⟨v, r⟩, hv, h'⟩
    · rw [show w ++ c :: rest = (w ++ [c]) ++ rest by simp]
      refine (ih.value h).within (w ++ [c]) [']'] (fun v => [v]) (by simp; omega) ?_ ?_ ?_
      · intro fuel x key _ _ hx
        rw [List.append_assoc, List.singleton_append, parseElems_succ, hw]
        dsimp only
        rw [if_neg hb, if_pos hc, hx]
        rfl
      · intro fuel x a y hf _ hx
        rw [List.append_assoc, List.singleton_append, parseElems_succ, hw]
        dsimp only
        rw [if_neg hb, if_pos hc, hx]
        dsimp only [Except.bind]
        rw [List.singleton_append, (parseElems_close (by omega) depth y).1]
        rfl
      · intro fuel x a y hf _ hx
        rw [List.append_assoc, List.singleton_append, Ordinary.parseElems, hw]
        dsimp only
        rw [if_neg hb, if_pos hc, hx, Option.bind_some, List.singleton_append,
          (parseElems_close (by omega) depth y).2]
        rfl
    · obtain ⟨c0, h0, rfl, hr⟩ := (readsAt fuel).value hv
      have hr : ∀ fuel x, 2 * c0.length ≤ fuel → x.head? = r.head? →
          parseValue fuel depth (c0 ++ x) = .ok (v, x) := hr
      rw [show w ++ c :: (c0 ++ r) = (w ++ c :: c0) ++ r by simp]
      refine (ih.elems (except_map_error h')).within (w ++ c :: c0) [] (fun vs => v :: vs)
        (by simp; omega) ?_ ?_ ?_
      all_goals
        intro fuel x
        rw [List.length_append, List.length_cons, List.append_assoc, List.cons_append]
      · intro key hf hh hx
        rw [parseElems_succ, hw]
        dsimp only
        rw [if_neg hb, if_pos hc, hr fuel x (by omega) hh]
        dsimp only [Except.bind]
        rw [hx]
        rfl
      · intro a y hf hh hx
        rw [parseElems_succ, hw]
        dsimp only
        rw [if_neg hb, if_pos hc, hr fuel x (by omega) hh]
        dsimp only [Except.bind]
        rw [hx]
        rfl
      · intro a y hf hh hx
        have hv := hr fuel x (by omega) hh
        rw [Ordinary.parseElems, hw]
        dsimp only
        rw [if_neg hb, if_pos hc, ((followsAt fuel).value depth (c0 ++ x)).eq_some hv,
          Option.bind_some, hx]
        rfl

theorem OffendsAt.succ_object {fuel depth : Nat} (ih : OffendsAt fuel) {cs : List Char}
    {key : String} (h : parseObject (fuel + 1) depth cs = .error (.duplicateKey key)) :
    Offends (fun fuel => parseObject fuel depth) (fun fuel => Ordinary.parseObject fuel depth) 1
      cs := by
  have hfirst : ∀ {fuel cs b}, parseMember fuel depth [] cs = b → b ≠ .error .invalid →
      (skipWs cs).head? ≠ some '}' :=
    fun he hb hx => hb (he.symm.trans (parseMember_brace hx _))
  rw [parseObject_succ] at h
  split at h
  · cases h
  rcases except_bind_error h with h | ⟨⟨m, r⟩, hm, h'⟩
  · refine (ih.member h).within [] ['}'] (fun m => .obj [m]) (by simp) ?_ ?_ ?_
    · intro fuel x key _ _ hx
      rw [List.nil_append, parseObject_succ, if_neg (hfirst hx (by simp)), hx]
      rfl
    · intro fuel x a y hf _ hx
      rw [List.nil_append, parseObject_succ, if_neg (hfirst hx (by simp)), hx]
      dsimp only [Except.bind]
      rw [List.singleton_append, (parseMembers_close (by omega) depth _ y).1]
      rfl
    · intro fuel x a y hf _ hx
      rw [List.nil_append, Ordinary.parseObject, if_neg, hx]
      · rw [Option.bind_some, List.singleton_append, (parseMembers_close (by omega) depth [] y).2]
        rfl
      · intro hb
        rw [Ordinary.parseMember_brace hb] at hx
        cases hx
  · obtain ⟨c0, h0, rfl, hr⟩ := (readsAt fuel).member hm
    have hr : ∀ fuel x, 2 * c0.length ≤ fuel → x.head? = r.head? →
        parseMember fuel depth [] (c0 ++ x) = .ok (m, x) := hr
    refine (ih.members (except_map_error h')).within c0 [] (fun ms => .obj (m :: ms)) ?_ ?_ ?_ ?_
    · have := List.length_pos_of_ne_nil h0
      omega
    · intro fuel x key hf hh hx
      have hm := hr fuel x (by omega) hh
      rw [parseObject_succ, if_neg (hfirst hm (by simp)), hm]
      dsimp only [Except.bind]
      rw [hx]
      rfl
    · intro fuel x a y hf hh hx
      have hm := hr fuel x (by omega) hh
      rw [parseObject_succ, if_neg (hfirst hm (by simp)), hm]
      dsimp only [Except.bind]
      rw [hx]
      rfl
    · intro fuel x a y hf hh hx
      have hm := hr fuel x (by omega) hh
      rw [Ordinary.parseObject, if_neg (hfirst hm (by simp)),
        ((followsAt fuel).member depth [] (c0 ++ x)).eq_some hm, Option.bind_some, hx]
      rfl

theorem OffendsAt.succ_members {fuel depth : Nat} (ih : OffendsAt fuel) {seen : List String}
    {cs : List Char} {key : String}
    (h : parseMembers (fuel + 1) depth seen cs = .error (.duplicateKey key)) :
    Offends (fun fuel => parseMembers fuel depth seen)
      (fun fuel => Ordinary.parseMembers fuel depth) 0 cs := by
  rw [parseMembers_succ] at h
  cases hs : skipWs cs with
  | nil =>
    rw [hs] at h
    cases h
  | cons c rest =>
    rw [hs] at h
    dsimp only at h
    obtain ⟨w, rfl, hw⟩ := skipWs_eq_cons hs
    split at h
    · cases h
    rename_i hb
    split at h
    swap
    · cases h
    rename_i hc
    rcases except_bind_error h with h | ⟨⟨m, r⟩, hm, h'⟩
    · rw [show w ++ c :: rest = (w ++ [c]) ++ rest by simp]
      refine (ih.member h).within (w ++ [c]) ['}'] (fun m => [m]) (by simp; omega) ?_ ?_ ?_
      · intro fuel x key _ _ hx
        rw [List.append_assoc, List.singleton_append, parseMembers_succ, hw]
        dsimp only
        rw [if_neg hb, if_pos hc, hx]
        rfl
      · intro fuel x a y hf _ hx
        rw [List.append_assoc, List.singleton_append, parseMembers_succ, hw]
        dsimp only
        rw [if_neg hb, if_pos hc, hx]
        dsimp only [Except.bind]
        rw [List.singleton_append, (parseMembers_close (by omega) depth _ y).1]
        rfl
      · intro fuel x a y hf _ hx
        rw [List.append_assoc, List.singleton_append, Ordinary.parseMembers, hw]
        dsimp only
        rw [if_neg hb, if_pos hc, hx, Option.bind_some, List.singleton_append,
          (parseMembers_close (by omega) depth [] y).2]
        rfl
    · obtain ⟨c0, h0, rfl, hr⟩ := (readsAt fuel).member hm
      have hr : ∀ fuel x, 2 * c0.length ≤ fuel → x.head? = r.head? →
          parseMember fuel depth seen (c0 ++ x) = .ok (m, x) := hr
      rw [show w ++ c :: (c0 ++ r) = (w ++ c :: c0) ++ r by simp]
      refine (ih.members (except_map_error h')).within (w ++ c :: c0) [] (fun ms => m :: ms)
        (by simp; omega) ?_ ?_ ?_
      all_goals
        intro fuel x
        rw [List.length_append, List.length_cons, List.append_assoc, List.cons_append]
      · intro key hf hh hx
        rw [parseMembers_succ, hw]
        dsimp only
        rw [if_neg hb, if_pos hc, hr fuel x (by omega) hh]
        dsimp only [Except.bind]
        rw [hx]
        rfl
      · intro a y hf hh hx
        rw [parseMembers_succ, hw]
        dsimp only
        rw [if_neg hb, if_pos hc, hr fuel x (by omega) hh]
        dsimp only [Except.bind]
        rw [hx]
        rfl
      · intro a y hf hh hx
        have hm := hr fuel x (by omega) hh
        rw [Ordinary.parseMembers, hw]
        dsimp only
        rw [if_neg hb, if_pos hc, ((followsAt fuel).member depth seen (c0 ++ x)).eq_some hm,
          Option.bind_some, hx]
        rfl

/-- A name that is long enough is new. -/
theorem exists_fresh (k : List Char) (seen : List String) :
    ∃ n, String.ofList (k ++ List.replicate n 'a') ∉ seen := by
  refine ⟨(seen.map String.length).sum + 1, fun h => ?_⟩
  have hle := List.le_sum_of_mem (List.mem_map_of_mem (f := String.length) h)
  rw [String.length_ofList, List.length_append, List.length_replicate] at hle
  omega

theorem parseValue_null {fuel : Nat} (h : 0 < fuel) (depth : Nat) (x : List Char) :
    parseValue fuel depth ('n' :: 'u' :: 'l' :: 'l' :: x) = .ok (.null, x) ∧
      Ordinary.parseValue fuel depth ('n' :: 'u' :: 'l' :: 'l' :: x) = some (.null, x) := by
  obtain ⟨fuel, rfl⟩ := Nat.exists_eq_add_of_le' (show 1 ≤ fuel by omega)
  rw [parseValue, Ordinary.parseValue]
  exact ⟨rfl, rfl⟩

theorem OffendsAt.succ_member {fuel depth : Nat} (ih : OffendsAt fuel) {seen : List String}
    {cs : List Char} {key : String}
    (h : parseMember (fuel + 1) depth seen cs = .error (.duplicateKey key)) :
    Offends (fun fuel => parseMember fuel depth seen) (fun fuel => Ordinary.parseMember fuel depth)
      0 cs := by
  rw [parseMember_succ] at h
  cases hs : skipWs cs with
  | nil =>
    rw [hs] at h
    cases h
  | cons c rest =>
    rw [hs] at h
    dsimp only at h
    obtain ⟨w, rfl, hw⟩ := skipWs_eq_cons hs
    split at h
    swap
    · cases h
    rename_i hc
    cases hl : lexString rest with
    | none =>
      rw [hl] at h
      cases h
    | some p =>
      obtain ⟨k, r1⟩ := p
      rw [hl] at h
      dsimp only at h
      obtain ⟨b, rfl, hb⟩ := lexString_eq_some hl
      have hb0 : ∀ x, lexString (b ++ '"' :: x) = some (k, x) := by
        intro x
        have h0 := hb 0 x
        rwa [List.replicate_zero, List.nil_append, List.append_nil] at h0
      split at h
      · -- the name itself
        rename_i hk
        refine ⟨w ++ c :: b, r1, by simp, by simp, ?_, ?_, ?_⟩
        · intro fuel t hf
          rw [List.length_append] at hf
          obtain ⟨fuel, rfl⟩ := Nat.exists_eq_add_of_le' (show 1 ≤ fuel by omega)
          refine ⟨String.ofList k, ?_⟩
          rw [List.append_assoc, List.cons_append, parseMember_succ, hw]
          dsimp only
          rw [if_pos hc, hb0]
          dsimp only
          rw [if_pos hk]
        · obtain ⟨n, hn⟩ := exists_fresh k seen
          refine ⟨List.replicate n 'a' ++ ['"', ':', 'n', 'u', 'l', 'l'],
            (String.ofList (k ++ List.replicate n 'a'), .null), fun fuel x hf => ?_⟩
          rw [List.length_append] at hf
          obtain ⟨fuel, rfl⟩ := Nat.exists_eq_add_of_le' (show 1 ≤ fuel by omega)
          rw [List.append_assoc, List.append_assoc, List.cons_append]
          dsimp only [List.cons_append, List.nil_append]
          rw [parseMember_succ, hw]
          dsimp only
          rw [if_pos hc, hb]
          dsimp only
          rw [if_neg hn, skipWs_cons (by decide)]
          dsimp only
          rw [if_pos rfl, (parseValue_null (by omega) depth x).1]
          rfl
        · refine ⟨[':', 'n', 'u', 'l', 'l'], (String.ofList k, .null), fun fuel x hf => ?_⟩
          rw [List.length_append] at hf
          obtain ⟨fuel, rfl⟩ := Nat.exists_eq_add_of_le' (show 1 ≤ fuel by omega)
          rw [List.append_assoc, List.cons_append, Ordinary.parseMember, hw]
          dsimp only [List.cons_append, List.nil_append]
          rw [if_pos hc, hb0]
          dsimp only
          rw [skipWs_cons (by decide)]
          dsimp only
          rw [if_pos rfl, (parseValue_null (by omega) depth x).2]
          rfl
      · -- in the value
        rename_i hk
        cases hs1 : skipWs r1 with
        | nil =>
          rw [hs1] at h
          cases h
        | cons c1 rest1 =>
          rw [hs1] at h
          dsimp only at h
          split at h
          swap
          · cases h
          rename_i hc1
          obtain ⟨w1, rfl, hw1⟩ := skipWs_eq_cons hs1
          have happ : ∀ x, w ++ c :: (b ++ '"' :: (w1 ++ c1 :: x)) =
              (w ++ c :: (b ++ '"' :: (w1 ++ [c1]))) ++ x := by
            intro x
            simp
          rw [happ]
          refine (ih.value (except_map_error h)).within _ [] (fun v => (String.ofList k, v))
            (by simp; omega) ?_ ?_ ?_
          · intro fuel x key _ _ hx
            rw [← happ, parseMember_succ, hw]
            dsimp only
            rw [if_pos hc, hb0]
            dsimp only
            rw [if_neg hk, hw1]
            dsimp only
            rw [if_pos hc1, hx]
            rfl
          · intro fuel x a y _ _ hx
            rw [← happ, parseMember_succ, hw]
            dsimp only
            rw [if_pos hc, hb0]
            dsimp only
            rw [if_neg hk, hw1]
            dsimp only
            rw [if_pos hc1, hx]
            rfl
          · intro fuel x a y _ _ hx
            rw [← happ, Ordinary.parseMember, hw]
            dsimp only
            rw [if_pos hc, hb0]
            dsimp only
            rw [hw1]
            dsimp only
            rw [if_pos hc1, hx]
            rfl

theorem offendsAt (fuel : Nat) : OffendsAt fuel := by
  induction fuel with
  | zero =>
    refine ⟨?_, ?_, ?_, ?_, ?_, ?_⟩ <;> intros <;> rename_i h
    · rw [parseValue] at h
      cases h
    · rw [parseArray] at h
      cases h
    · rw [parseElems] at h
      cases h
    · rw [parseObject] at h
      cases h
    · rw [parseMember] at h
      cases h
    · rw [parseMembers] at h
      cases h
  | succ fuel ih =>
    exact ⟨ih.succ_value, ih.succ_array, ih.succ_elems, ih.succ_object, ih.succ_member,
      ih.succ_members⟩

/-! ## Texts -/

theorem parse_eq_duplicate {cs : List Char} {key : String} :
    parse cs = .error (.duplicateKey key) ↔
      parseValue (2 * cs.length + 2) depthLimit cs = .error (.duplicateKey key) := by
  rw [parse]
  cases parseValue (2 * cs.length + 2) depthLimit cs with
  | error e => exact ⟨fun h => by cases h; rfl, fun h => by cases h; rfl⟩
  | ok p =>
    refine ⟨fun h => ?_, fun h => by cases h⟩
    dsimp only at h
    split at h <;> cases h

/-- A text is refused for a name met twice at the quote that ends the name. -/
theorem parse_offends {cs : List Char} {key : String}
    (h : parse cs = .error (.duplicateKey key)) :
    ∃ p q, cs = p ++ '"' :: q ∧
      (∀ t, ∃ key, parse (p ++ '"' :: t) = .error (.duplicateKey key)) ∧
      (∃ t v, parse (p ++ t) = .ok v) ∧ ∃ t v, Ordinary.parse (p ++ '"' :: t) = some v := by
  obtain ⟨p, q, -, rfl, ho⟩ := (offendsAt _).value (parse_eq_duplicate.mp h)
  refine ⟨p, q, rfl, fun t => ?_, ?_, ?_⟩
  · obtain ⟨key, hkey⟩ := ho.stops (2 * (p ++ '"' :: t).length + 2) t (by simp; omega)
    exact ⟨key, parse_eq_duplicate.mpr hkey⟩
  · obtain ⟨t, v, ht⟩ := ho.strict_goes_on
    have hv := ht (2 * (p ++ t).length + 2) [] (by simp; omega)
    refine ⟨t, v, ?_⟩
    rw [List.append_nil] at hv
    rw [parse, hv]
    rfl
  · obtain ⟨t, v, ht⟩ := ho.goes_on
    have hv := ht (2 * (p ++ '"' :: t).length + 2) [] (by simp; omega)
    refine ⟨t, v, ?_⟩
    rw [List.append_nil] at hv
    rw [Ordinary.parse, hv]
    rfl

/-! ## Byte strings -/

theorem utf8_ofList_append (cs ds : List Char) :
    utf8 (String.ofList (cs ++ ds)) = utf8 (String.ofList cs) ++ utf8 (String.ofList ds) := by
  rw [String.ofList_append, utf8_append]

/-- Text that ends in a quote is text in the bytes as well. -/
theorem readText_quote {bytes : Bytes} {p q : List Char} (h : readText bytes = p ++ '"' :: q) :
    ∃ rest, bytes = utf8 (String.ofList (p ++ ['"'])) ++ rest := by
  have hsplit : ∀ d q, (decodeChars bytes.length bytes).1 = d → d = p ++ '"' :: q →
      ∃ rest, bytes = utf8 (String.ofList (p ++ ['"'])) ++ rest := by
    intro d q hd he
    refine ⟨utf8 (String.ofList q) ++ (decodeChars bytes.length bytes).2, ?_⟩
    rw [← List.append_assoc, ← utf8_ofList_append, List.append_assoc, List.singleton_append, ← he,
      ← hd]
    exact decodeChars_eq _ _
  rw [readText] at h
  split at h
  · exact hsplit _ q rfl h
  · -- the NUL stands behind the quote
    cases List.eq_nil_or_concat q with
    | inl hq =>
      rw [hq] at h
      have := congrArg List.getLast? h
      simp at this
    | inr hq =>
      obtain ⟨q', c, rfl⟩ := hq
      refine hsplit _ q' rfl ?_
      rw [List.concat_eq_append, ← List.cons_append, ← List.append_assoc] at h
      exact (List.append_inj' h rfl).1

/-- What is wrong first is a name met twice: the bytes up to some place can be completed to a
document, and to none in which no object has a name twice. -/
def DuplicateFirst (bytes : Bytes) : Prop :=
  ∃ p, p <+: bytes ∧ (∃ t v, document (p ++ t) = some v) ∧
    ¬ ∃ t v, document (p ++ t) = some v ∧ Strict v

theorem parseStrictJson_duplicate {α : Type} {decode : Json → Option α} {bytes : Bytes} :
    (∃ key, parseStrictJson decode bytes = .error (.duplicateKey key)) ↔
      ∃ key, parse (readText bytes) = .error (.duplicateKey key) := by
  rw [parseStrictJson]
  cases parse (readText bytes) with
  | error e =>
    cases e with
    | duplicateKey key => exact ⟨fun _ => ⟨key, rfl⟩, fun _ => ⟨shownKey key, rfl⟩⟩
    | invalid => simp [ParseError.reported]
    | trailingData => simp [ParseError.reported]
  | ok v =>
    constructor
    · rintro ⟨key, h⟩
      dsimp only at h
      split at h <;> cases h
    · rintro ⟨key, h⟩
      cases h

theorem document_text (cs : List Char) (bytes : Bytes) :
    document (utf8 (String.ofList cs) ++ bytes) = Ordinary.parse (cs ++ readText bytes) := by
  rw [document, readText_append]

theorem duplicateFirst_iff {bytes : Bytes} :
    (∃ key, parse (readText bytes) = .error (.duplicateKey key)) ↔ DuplicateFirst bytes := by
  constructor
  · rintro ⟨key, h⟩
    obtain ⟨p, q, hpq, hstops, -, t, v, ht⟩ := parse_offends h
    obtain ⟨rest, hrest⟩ := readText_quote hpq
    refine ⟨_, ⟨rest, hrest.symm⟩, ⟨utf8 (String.ofList t), v, ?_⟩, ?_⟩
    · rw [document_text, readText_utf8, String.toList_ofList, List.append_assoc]
      exact ht
    · rintro ⟨t, v, hv⟩
      rw [document_text, ← parse_ok_iff, List.append_assoc] at hv
      obtain ⟨key, hkey⟩ := hstops (readText t)
      rw [List.singleton_append, hkey] at hv
      cases hv
  · rintro ⟨p, ⟨s, rfl⟩, ⟨t, v, ht⟩, hno⟩
    have hv : ¬ Strict v := fun hv => hno ⟨t, v, ht, hv⟩
    obtain ⟨key, hkey⟩ := parse_duplicate ht hv
    obtain ⟨p', q, hpq, hstops, ⟨t', v', ht'⟩, -⟩ := parse_offends hkey
    obtain ⟨rest, hrest⟩ := readText_quote hpq
    have hwithin : ∀ c, p = utf8 (String.ofList (p' ++ ['"'])) ++ c →
        ∃ key, parse (readText (p ++ s)) = .error (.duplicateKey key) := by
      rintro c rfl
      rw [List.append_assoc, readText_append, List.append_assoc]
      exact hstops _
    rcases List.append_eq_append_iff.mp hrest with ⟨c, hc, -⟩ | ⟨c, hc, -⟩
    · -- the bytes end before the quote, or with it
      cases List.eq_nil_or_concat c with
      | inl hnil =>
        rw [hnil, List.append_nil] at hc
        exact hwithin [] (by rw [List.append_nil, hc])
      | inr hcat =>
        obtain ⟨c', b, rfl⟩ := hcat
        refine (hno ⟨c' ++ utf8 (String.ofList t'), v', ?_⟩).elim
        rw [utf8_ofList_append, List.concat_eq_append, ← List.append_assoc] at hc
        have hp := (List.append_inj' hc rfl).1
        rw [← List.append_assoc, ← hp, document_text, readText_utf8, String.toList_ofList]
        exact parse_ok_iff.mp ht'
    · exact hwithin c hc

theorem strict_json (bytes : Bytes) :
    (∀ v, parseStrictJson some bytes = .ok v ↔
      (∃ d, document bytes = some d ∧ Strict d) ∧ ordinaryJson bytes = some v) ∧
    ((∃ key, parseStrictJson some bytes = .error (.duplicateKey key)) ↔ DuplicateFirst bytes) := by
  refine ⟨fun v => ?_, parseStrictJson_duplicate.trans duplicateFirst_iff⟩
  rw [parseStrictJson_ok_iff]
  constructor
  · rintro ⟨hd, hs⟩
    exact ⟨⟨v, hd, hs⟩, ordinaryJson_strict hd hs⟩
  · rintro ⟨⟨d, hd, hs⟩, hv⟩
    rw [ordinaryJson_strict hd hs] at hv
    cases hv
    exact ⟨hd, hs⟩

end Json
end EgoBridge
