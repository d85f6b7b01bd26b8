import EgoBridge.Lib.Utf8

/-!
# Lib.Stream

Byte streams whose calls may move fewer bytes than they were asked to, and may fail.

* `Source.readExact_ok`     — a source that does not fail and has the bytes gives exactly them.
* `Source.readExact_short`  — one that does not fail and lacks them ends early.
* `Sink.writeAll_ok`        — a sink that does not fail takes every byte.
-/

namespace EgoBridge

/-- The kinds of I/O error that callers tell apart. -/
inductive IoErrorKind where
  | unexpectedEof
  | writeZero
  | other
  deriving DecidableEq, Repr

/-! ## Sources -/

/-- The bytes that have yet to be read. A call of `read` fails, or gives at most so many bytes
after the first. -/
structure Source where
  rest : Bytes
  answers : Nat → Except IoErrorKind Nat
  calls : Nat

namespace Source

/-- A source that never fails, after so many calls. -/
def quiet (bytes : Bytes) (given : Nat → Nat) (calls : Nat) : Source :=
  ⟨bytes, fun i => .ok (given i), calls⟩

def read (s : Source) (asked : Nat) : Except IoErrorKind Bytes × Source :=
  match s.answers s.calls with
  | .error e => (.error e, { s with calls := s.calls + 1 })
  | .ok more =>
    let n := min asked (more + 1)
    (.ok (s.rest.take n), { s with rest := s.rest.drop n, calls := s.calls + 1 })

def readExact (s : Source) (asked : Nat) : Except IoErrorKind Bytes × Source :=
  if _ha : asked = 0 then (.ok [], s)
  else
    match s.read asked with
    | (.error e, s) => (.error e, s)
    | (.ok [], s) => (.error .unexpectedEof, s)
    | (.ok (b :: bs), s) =>
      match readExact s (asked - (bs.length + 1)) with
      | (.error e, s) => (.error e, s)
      | (.ok tail, s) => (.ok (b :: bs ++ tail), s)
termination_by asked

/-- A call that gives a byte moves the source on. -/
theorem read_cons {s s' : Source} {asked : Nat} {b : UInt8} {bs : Bytes}
    (h : s.read asked = (.ok (b :: bs), s')) : s'.rest.length < s.rest.length := by
  unfold read at h
  split at h
  · cases h
  · simp only [Prod.mk.injEq, Except.ok.injEq] at h
    obtain ⟨hb, rfl⟩ := h
    have hlen := congrArg List.length hb
    rw [List.length_take, List.length_cons] at hlen
    simp only [List.length_drop]
    omega

theorem read_le (s : Source) (asked : Nat) : (s.read asked).2.rest.length ≤ s.rest.length := by
  unfold read
  split
  · exact Nat.le_refl _
  · simp

theorem readExact_le (s : Source) (asked : Nat) :
    (s.readExact asked).2.rest.length ≤ s.rest.length := by
  induction asked using Nat.strong_induction_on generalizing s with
  | _ asked ih =>
    unfold readExact
    have hread := read_le s asked
    split
    · exact Nat.le_refl _
    · split
      next h => rwa [h] at hread
      next h => rwa [h] at hread
      next ha _ b bs s' h =>
        rw [h] at hread
        have hrest := ih (asked - (bs.length + 1)) (by omega) s'
        split
        all_goals
          next h' =>
            rw [h'] at hrest
            exact hrest.trans hread

/-- A beginning of one byte at least. -/
theorem take_eq_cons {bytes : Bytes} {n : Nat} (hn : 0 < n) (hl : n ≤ bytes.length) :
    ∃ b bs, bytes.take n = b :: bs ∧ bs.length + 1 = n := by
  cases h : bytes.take n with
  | nil =>
    have hlen := congrArg List.length h
    rw [List.length_take, Nat.min_eq_left hl, List.length_nil] at hlen
    omega
  | cons b bs =>
    have hlen := congrArg List.length h
    rw [List.length_take, Nat.min_eq_left hl, List.length_cons] at hlen
    exact ⟨b, bs, rfl, hlen.symm⟩

section

variable (given : Nat → Nat)

theorem read_nil (asked calls : Nat) :
    (quiet [] given calls).read asked = (.ok [], quiet [] given (calls + 1)) := by
  simp [read, quiet]

/-- One call on a source that does not fail gives one byte at least, if there is one. -/
theorem read_quiet (bytes : Bytes) (asked calls : Nat) (hb : bytes ≠ []) (ha : 0 < asked) :
    ∃ n, 0 < n ∧ n ≤ asked ∧ n ≤ bytes.length ∧
      (quiet bytes given calls).read asked =
        (.ok (bytes.take n), quiet (bytes.drop n) given (calls + 1)) := by
  have hpos : 0 < bytes.length := List.length_pos_of_ne_nil hb
  refine ⟨min (min asked (given calls + 1)) bytes.length, by omega, by omega, by omega, ?_⟩
  simp only [read, quiet]
  generalize min asked (given calls + 1) = k
  by_cases hle : k ≤ bytes.length
  · rw [Nat.min_eq_left hle]
  · rw [Nat.min_eq_right (by omega), List.take_length, List.drop_length,
      List.take_of_length_le (by omega), List.drop_eq_nil_of_le (by omega)]

theorem readExact_ok (bytes : Bytes) (asked calls : Nat) (ha : asked ≤ bytes.length) :
    ∃ calls', (quiet bytes given calls).readExact asked =
      (.ok (bytes.take asked), quiet (bytes.drop asked) given calls') := by
  induction asked using Nat.strong_induction_on generalizing bytes calls with
  | _ asked ih =>
    unfold readExact
    by_cases h0 : asked = 0
    · exact ⟨calls, by simp [h0]⟩
    have hb : bytes ≠ [] := by
      intro h
      rw [h] at ha
      exact h0 (Nat.le_zero.mp ha)
    obtain ⟨n, hn, hna, hnb, hread⟩ := read_quiet given bytes asked calls hb (Nat.pos_of_ne_zero h0)
    obtain ⟨b, bs, hcons, hlen⟩ := take_eq_cons hn hnb
    have ha' : asked - n ≤ (bytes.drop n).length := by
      rw [List.length_drop]
      omega
    obtain ⟨calls', hrest⟩ := ih (asked - n) (by omega) (bytes.drop n) (calls + 1) ha'
    refine ⟨calls', ?_⟩
    rw [dif_neg h0, hread, hcons]
    dsimp only
    rw [hlen, hrest]
    dsimp only
    rw [← hcons, List.drop_drop, Nat.add_sub_cancel' hna, ← List.take_add, Nat.add_sub_cancel' hna]

theorem readExact_short (bytes : Bytes) (asked calls : Nat) (ha : bytes.length < asked) :
    ((quiet bytes given calls).readExact asked).1 = .error .unexpectedEof := by
  induction asked using Nat.strong_induction_on generalizing bytes calls with
  | _ asked ih =>
    unfold readExact
    rw [dif_neg (by omega)]
    by_cases hb : bytes = []
    · rw [hb, read_nil]
    · obtain ⟨n, hn, hna, hnb, hread⟩ := read_quiet given bytes asked calls hb (Nat.zero_lt_of_lt ha)
      obtain ⟨b, bs, hcons, hlen⟩ := take_eq_cons hn hnb
      have ha' : (bytes.drop n).length < asked - n := by
        rw [List.length_drop]
        omega
      have hrest := ih (asked - n) (by omega) (bytes.drop n) (calls + 1) ha'
      rw [hread, hcons]
      dsimp only
      rw [hlen]
      split
      · rename_i h
        rw [h] at hrest
        exact hrest
      · rename_i h
        rw [h] at hrest
        cases hrest

end

end Source

/-! ## Sinks -/

/-- The bytes that have been written. A call of `write` fails, or takes at most so many bytes. -/
structure Sink where
  sent : Bytes
  answers : Nat → Except IoErrorKind Nat
  calls : Nat

namespace Sink

/-- A sink that never fails, and takes a byte at least at each call. -/
def quiet (sent : Bytes) (taken : Nat → Nat) (calls : Nat) : Sink :=
  ⟨sent, fun i => .ok (taken i + 1), calls⟩

def write (s : Sink) (bytes : Bytes) : Except IoErrorKind Nat × Sink :=
  match s.answers s.calls with
  | .error e => (.error e, { s with calls := s.calls + 1 })
  | .ok most =>
    let n := min bytes.length most
    (.ok n, { s with sent := s.sent ++ bytes.take n, calls := s.calls + 1 })

def writeAll (s : Sink) (bytes : Bytes) : Except IoErrorKind Unit × Sink :=
  if _hb : bytes = [] then (.ok (), s)
  else
    match s.write bytes with
    | (.error e, s) => (.error e, s)
    | (.ok 0, s) => (.error .writeZero, s)
    | (.ok (n + 1), s) => writeAll s (bytes.drop (n + 1))
termination_by bytes.length
decreasing_by
  have := List.length_pos_of_ne_nil _hb
  rw [List.length_drop]
  omega

def flush (s : Sink) : Except IoErrorKind Unit × Sink :=
  match s.answers s.calls with
  | .error e => (.error e, { s with calls := s.calls + 1 })
  | .ok _ => (.ok (), { s with calls := s.calls + 1 })

section

variable (taken : Nat → Nat)

theorem writeAll_ok (sent bytes : Bytes) (calls : Nat) :
    ∃ calls', (quiet sent taken calls).writeAll bytes =
      (.ok (), quiet (sent ++ bytes) taken calls') := by
  induction h : bytes.length using Nat.strong_induction_on generalizing sent bytes calls with
  | _ length ih =>
    unfold writeAll
    by_cases hb : bytes = []
    · exact ⟨calls, by simp [hb]⟩
    have hpos := List.length_pos_of_ne_nil hb
    obtain ⟨n, hn⟩ : ∃ n, min bytes.length (taken calls + 1) = n + 1 :=
      Nat.exists_eq_add_of_le' (by omega)
    have hwrite : (quiet sent taken calls).write bytes =
        (.ok (n + 1), quiet (sent ++ bytes.take (n + 1)) taken (calls + 1)) := by
      simp only [write, quiet, hn]
    obtain ⟨calls', hrest⟩ := ih (bytes.length - (n + 1)) (by omega)
      (sent ++ bytes.take (n + 1)) (bytes.drop (n + 1)) (calls + 1) List.length_drop
    refine ⟨calls', ?_⟩
    rw [dif_neg hb, hwrite]
    dsimp only
    rw [hrest, List.append_assoc, List.take_append_drop]

theorem flush_ok (sent : Bytes) (calls : Nat) :
    (quiet sent taken calls).flush = (.ok (), quiet sent taken (calls + 1)) := rfl

end

end Sink
end EgoBridge
