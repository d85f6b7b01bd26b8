import EgoBridge.Protocol.Artifacts

/-!
# Protocol.Jpeg

`jpeg_dimensions` index by index: every access is checked against the slice and every sum against
`usize`, and its loops run on fuel.

* `jpegLoop_eq`           — with more fuel than there are bytes, no check fails and the result is
  that of `jpegScan`.
* `jpegScan_segments`     — segments are skipped up to the frame.
* `jpeg_dimensions_exact` — both, for the whole function.
-/

namespace EgoBridge
namespace Protocol
namespace Jpeg

inductive Panic where
  | outOfBounds
  | overflow
  | outOfFuel
  deriving DecidableEq, Repr

abbrev Checked (α : Type) := Except Panic α

/-- A slice, whose length `isize` can hold. -/
structure Slice where
  bytes : Bytes
  bound : bytes.length < 2 ^ 63

/-! ## The function -/

/-- `usize` addition. -/
def plus (a b : Nat) : Checked Nat := if a + b < 2 ^ 64 then .ok (a + b) else .error .overflow

/-- `bytes[index]`. -/
def byteAt (bytes : Bytes) (index : Nat) : Checked UInt8 :=
  match bytes[index]? with
  | some b => .ok b
  | none => .error .outOfBounds

/-- `u16::from_be_bytes(bytes[index..index + 2])`. -/
def u16At (bytes : Bytes) (index : Nat) : Checked Nat := do
  let stop ← plus index 2
  if bytes.length < stop then .error .outOfBounds
  else
    match bytes.drop index with
    | high :: low :: _ => .ok (be16 high low)
    | _ => .error .outOfBounds

/-- The fill bytes are passed. -/
def skipFill (bytes : Bytes) : Nat → Nat → Checked Nat
  | 0, _ => .error .outOfFuel
  | fuel + 1, index => do
    if index < bytes.length then
      if (← byteAt bytes index) = 0xff then skipFill bytes fuel (← plus index 1)
      else .ok index
    else .ok index

/-- What a turn of the loop comes to. -/
inductive Flow where
  | next (index : Nat)
  | ret (dimensions : Option (Nat × Nat))

/-- The part of a turn after a marker, from the index of the declared length on. -/
def jpegSegment (bytes : Bytes) (marker : UInt8) (index : Nat) : Checked Flow := do
  if marker = 0xd9 ∨ marker = 0xda then .ok (.ret none)
  else if bytes.length < (← plus index 2) then .ok (.ret none)
  else
    let length ← u16At bytes index
    if length < 2 then .ok (.ret none)
    else if bytes.length < (← plus index length) then .ok (.ret none)
    else if isSof marker ∧ 7 ≤ length then
      let height ← u16At bytes (← plus index 3)
      let width ← u16At bytes (← plus index 5)
      if width = 0 ∨ height = 0 then .ok (.ret none) else .ok (.ret (some (width, height)))
    else .ok (.next (← plus index length))

/-- One turn of the loop. -/
def jpegTurn (bytes : Bytes) (fuel index : Nat) : Checked Flow := do
  if (← byteAt bytes index) ≠ 0xff then .ok (.next (← plus index 1))
  else
    let index ← skipFill bytes fuel index
    if bytes.length ≤ index then .ok (.ret none)
    else jpegSegment bytes (← byteAt bytes index) (← plus index 1)

def jpegLoop (bytes : Bytes) : Nat → Nat → Checked (Option (Nat × Nat))
  | 0, _ => .error .outOfFuel
  | fuel + 1, index => do
    if (← plus index 9) < bytes.length then
      match ← jpegTurn bytes (fuel + 1) index with
      | .next index => jpegLoop bytes fuel index
      | .ret dimensions => .ok dimensions
    else .ok none

/-- `jpeg_dimensions`, with so much fuel for each of its loops. -/
def jpegDimensionsChecked (fuel : Nat) (bytes : Bytes) : Checked (Option (Nat × Nat)) :=
  jpegLoop bytes fuel 2

/-! ## The scan, part by part -/

/-- What the scan makes of a marker and what follows it. -/
def segmentScan (marker : UInt8) (segment : Bytes) : Option (Nat × Nat) :=
  if marker = 0xd9 ∨ marker = 0xda then none
  else
    match segment with
    | high :: low :: body =>
      let length := be16 high low
      if length < 2 ∨ (high :: low :: body).length < length then none
      else if isSof marker ∧ 7 ≤ length then
        match body with
        | _ :: h1 :: h0 :: w1 :: w0 :: _ =>
          if be16 w1 w0 = 0 ∨ be16 h1 h0 = 0 then none else some (be16 w1 w0, be16 h1 h0)
        | _ => none
      else jpegScan ((high :: low :: body).drop length)
    | _ => none

theorem jpegScan_short {rest : Bytes} (h : rest.length ≤ 9) : jpegScan rest = none := by
  rw [jpegScan, if_pos h]

theorem jpegScan_other {b : UInt8} {rest : Bytes} (hlen : 9 < (b :: rest).length)
    (hb : b ≠ 0xff) : jpegScan (b :: rest) = jpegScan rest := by
  rw [jpegScan, if_neg (Nat.not_le.mpr hlen), if_pos (by simpa using hb)]
  rfl

theorem jpegScan_fill {rest : Bytes} (hlen : 9 < (0xff :: rest).length)
    (hd : (0xff :: rest : Bytes).dropWhile (fun b => b = 0xff) = []) :
    jpegScan (0xff :: rest) = none := by
  rw [jpegScan, if_neg (Nat.not_le.mpr hlen), if_neg (by simp)]
  split
  · rfl
  · rename_i hd'
    rw [hd] at hd'
    cases hd'

theorem jpegScan_marker {rest segment : Bytes} {marker : UInt8}
    (hlen : 9 < (0xff :: rest).length)
    (hd : (0xff :: rest : Bytes).dropWhile (fun b => b = 0xff) = marker :: segment) :
    jpegScan (0xff :: rest) = segmentScan marker segment := by
  rw [jpegScan, if_neg (Nat.not_le.mpr hlen), if_neg (by simp)]
  split
  · rename_i hd'
    rw [hd] at hd'
    cases hd'
  · rename_i hd'
    rw [hd] at hd'
    cases hd'
    rcases segment with - | ⟨high, - | ⟨low, body⟩⟩
    · rfl
    · rfl
    · rcases body with - | ⟨_, - | ⟨h1, - | ⟨h0, - | ⟨w1, - | ⟨w0, rest⟩⟩⟩⟩⟩ <;> rfl

/-! ## No check fails -/

section

variable {bytes : Bytes} (hb : bytes.length < 2 ^ 63)

theorem plus_ok {a b : Nat} (h : a + b < 2 ^ 64) : plus a b = .ok (a + b) := if_pos h

theorem byteAt_ok {index : Nat} {b : UInt8} {rest : Bytes} (h : bytes.drop index = b :: rest) :
    byteAt bytes index = .ok b := by
  have hget : bytes[index]? = some b := by
    rw [← List.head?_drop, h, List.head?_cons]
  rw [byteAt, hget]

theorem lt_of_drop {index : Nat} {b : UInt8} {rest : Bytes} (h : bytes.drop index = b :: rest) :
    index < bytes.length := by
  have hlen := congrArg List.length h
  rw [List.length_drop, List.length_cons] at hlen
  omega

theorem drop_succ {index : Nat} {b : UInt8} {rest : Bytes} (h : bytes.drop index = b :: rest) :
    bytes.drop (index + 1) = rest := by
  rw [← List.drop_drop, h]
  rfl

include hb

theorem u16At_ok {index : Nat} {high low : UInt8} {rest : Bytes}
    (h : bytes.drop index = high :: low :: rest) : u16At bytes index = .ok (be16 high low) := by
  have hi := lt_of_drop (drop_succ h)
  have hp : plus index 2 = .ok (index + 2) := plus_ok (by omega)
  have hn : ¬ bytes.length < index + 2 := by omega
  simp only [u16At, hp, bind, Except.bind, if_neg hn, h]

theorem skipFill_ok {fuel index : Nat} (hi : index ≤ bytes.length)
    (hf : bytes.length - index < fuel) :
    ∃ next, skipFill bytes fuel index = .ok next ∧ index ≤ next ∧ next ≤ bytes.length ∧
      bytes.drop next = (bytes.drop index).dropWhile (fun b => b = 0xff) := by
  induction fuel generalizing index with
  | zero => omega
  | succ fuel ih =>
    rw [skipFill]
    cases hd : bytes.drop index with
    | nil =>
      have hle := List.drop_eq_nil_iff.mp hd
      exact ⟨index, if_neg (Nat.not_lt.mpr hle), Nat.le_refl _, hi, hd⟩
    | cons b rest =>
      have hlt := lt_of_drop hd
      rw [if_pos hlt, byteAt_ok hd]
      by_cases hff : b = 0xff
      · obtain ⟨next, hn, hle, hbound, hdrop⟩ := @ih (index + 1) hlt (by omega)
        refine ⟨next, ?_, by omega, hbound, ?_⟩
        · have hp : plus index 1 = .ok (index + 1) := plus_ok (by omega)
          simp only [bind, Except.bind, if_pos hff, hp, hn]
        · rw [hdrop, drop_succ hd, List.dropWhile_cons_of_pos (by simpa using hff)]
      · refine ⟨index, ?_, Nat.le_refl _, hi, ?_⟩
        · simp only [bind, Except.bind, if_neg hff]
        · rw [hd, List.dropWhile_cons_of_neg (by simpa using hff)]

omit hb in
/-- A turn gives the result, or goes on to where the scan has it. -/
def Flow.Gives (bytes : Bytes) (index : Nat) (result : Option (Nat × Nat)) : Flow → Prop
  | .next i => index < i ∧ i ≤ bytes.length ∧ result = jpegScan (bytes.drop i)
  | .ret dimensions => result = dimensions

theorem jpegSegment_ok (marker : UInt8) {index : Nat} (hi : index ≤ bytes.length) :
    ∃ flow, jpegSegment bytes marker index = .ok flow ∧
      flow.Gives bytes index (segmentScan marker (bytes.drop index)) := by
  have hp2 : plus index 2 = .ok (index + 2) := plus_ok (by omega)
  rw [jpegSegment, segmentScan.eq_def]
  by_cases hm : marker = 0xd9 ∨ marker = 0xda
  · rw [if_pos hm, if_pos hm]
    exact ⟨.ret none, rfl, rfl⟩
  rw [if_neg hm, if_neg hm, hp2]
  have hlen : (bytes.drop index).length = bytes.length - index := List.length_drop ..
  rcases hd : bytes.drop index with - | ⟨high, - | ⟨low, body⟩⟩
  · rw [hd, List.length_nil] at hlen
    refine ⟨.ret none, ?_, rfl⟩
    simp only [bind, Except.bind]
    exact if_pos (by omega)
  · rw [hd, List.length_singleton] at hlen
    refine ⟨.ret none, ?_, rfl⟩
    simp only [bind, Except.bind]
    exact if_pos (by omega)
  rw [hd] at hlen
  simp only [List.length_cons] at hlen
  have hbe := be16_lt high low
  have hpl : plus index (be16 high low) = .ok (index + be16 high low) := plus_ok (by omega)
  have hn : ¬ bytes.length < index + 2 := by omega
  simp only [bind, Except.bind, if_neg hn, u16At_ok hb hd, hpl, List.length_cons]
  by_cases h2 : be16 high low < 2
  · rw [if_pos h2, if_pos (.inl h2)]
    exact ⟨.ret none, rfl, rfl⟩
  by_cases hs : bytes.length < index + be16 high low
  · rw [if_neg h2, if_pos hs, if_pos (.inr (by omega))]
    exact ⟨.ret none, rfl, rfl⟩
  have hfits : ¬ (be16 high low < 2 ∨ body.length + 1 + 1 < be16 high low) := by omega
  rw [if_neg h2, if_neg hs, if_neg hfits]
  by_cases hsof : isSof marker = true ∧ 7 ≤ be16 high low
  · rw [if_pos hsof, if_pos hsof]
    rcases body with - | ⟨b, - | ⟨h1, - | ⟨h0, - | ⟨w1, - | ⟨w0, rest⟩⟩⟩⟩⟩
    · simp only [List.length_nil] at hlen
      omega
    · simp only [List.length_cons, List.length_nil] at hlen
      omega
    · simp only [List.length_cons, List.length_nil] at hlen
      omega
    · simp only [List.length_cons, List.length_nil] at hlen
      omega
    · simp only [List.length_cons, List.length_nil] at hlen
      omega
    have hd3 : bytes.drop (index + 3) = h1 :: h0 :: w1 :: w0 :: rest := by
      rw [← List.drop_drop, hd]
      rfl
    have hd5 : bytes.drop (index + 5) = w1 :: w0 :: rest := by
      rw [← List.drop_drop, hd]
      rfl
    have hp3 : plus index 3 = .ok (index + 3) := plus_ok (by omega)
    have hp5 : plus index 5 = .ok (index + 5) := plus_ok (by omega)
    simp only [hp3, hp5, u16At_ok hb hd3, u16At_ok hb hd5]
    by_cases hz : be16 w1 w0 = 0 ∨ be16 h1 h0 = 0
    · rw [if_pos hz, if_pos hz]
      exact ⟨.ret none, rfl, rfl⟩
    · rw [if_neg hz, if_neg hz]
      exact ⟨_, rfl, rfl⟩
  · rw [if_neg hsof, if_neg hsof]
    refine ⟨_, rfl, by omega, by omega, ?_⟩
    rw [← hd, List.drop_drop]

theorem jpegTurn_ok {fuel index : Nat} (hi : index + 9 < bytes.length)
    (hf : bytes.length - index < fuel) :
    ∃ flow, jpegTurn bytes fuel index = .ok flow ∧
      flow.Gives bytes index (jpegScan (bytes.drop index)) := by
  have hlen : (bytes.drop index).length = bytes.length - index := List.length_drop ..
  rcases hd : bytes.drop index with - | ⟨b, rest⟩
  · rw [hd, List.length_nil] at hlen
    omega
  rw [hd] at hlen
  have hlong : 9 < (b :: rest).length := by omega
  rw [jpegTurn, byteAt_ok hd]
  by_cases hff : b = 0xff
  · subst hff
    obtain ⟨next, hn, hle, hbound, hdrop⟩ := skipFill_ok hb (by omega) hf
    rw [hd] at hdrop
    simp only [bind, Except.bind, ne_eq, not_true_eq_false, ↓reduceIte, hn]
    rcases hnext : bytes.drop next with - | ⟨marker, segment⟩
    · rw [hnext] at hdrop
      refine ⟨.ret none, if_pos (List.drop_eq_nil_iff.mp hnext), ?_⟩
      exact jpegScan_fill hlong hdrop.symm
    · have hlt := lt_of_drop hnext
      have hp : plus next 1 = .ok (next + 1) := plus_ok (by omega)
      rw [hnext] at hdrop
      rw [if_neg (by omega), byteAt_ok hnext, hp, jpegScan_marker hlong hdrop.symm]
      obtain ⟨flow, hflow, hgives⟩ := jpegSegment_ok hb marker hlt
      rw [drop_succ hnext] at hgives
      refine ⟨flow, hflow, ?_⟩
      cases flow with
      | next i => exact ⟨by have := hgives.1; omega, hgives.2⟩
      | ret dimensions => exact hgives
  · have hp : plus index 1 = .ok (index + 1) := plus_ok (by omega)
    refine ⟨.next (index + 1), ?_, by omega, by omega, ?_⟩
    · simp only [bind, Except.bind, ne_eq, hff, not_false_eq_true, ↓reduceIte, hp]
    · rw [jpegScan_other hlong hff, drop_succ hd]

/-- With more fuel than there are bytes left, the loop runs to its end, and no check fails. -/
theorem jpegLoop_eq {fuel index : Nat} (hi : index ≤ bytes.length + 2)
    (hf : bytes.length - index < fuel) :
    jpegLoop bytes fuel index = .ok (jpegScan (bytes.drop index)) := by
  induction fuel generalizing index with
  | zero => omega
  | succ fuel ih =>
    have hp : plus index 9 = .ok (index + 9) := plus_ok (by omega)
    rw [jpegLoop, hp]
    simp only [bind, Except.bind]
    by_cases hlt : index + 9 < bytes.length
    · obtain ⟨flow, hflow, hgives⟩ := jpegTurn_ok hb hlt hf
      rw [if_pos hlt, hflow]
      cases flow with
      | next i =>
        obtain ⟨hni, hbound, hscan⟩ := hgives
        rw [hscan]
        exact ih (by omega) (by omega)
      | ret dimensions => exact congrArg Except.ok hgives.symm
    · rw [if_neg hlt, jpegScan_short]
      rw [List.length_drop]
      omega

end

/-! ## Segments -/

/-- `u16::to_be_bytes`. -/
def be16Bytes (n : Nat) : Bytes := [UInt8.ofNat (n / 256), UInt8.ofNat (n % 256)]

/-- A marker that has a declared length and is no frame. -/
structure Segment where
  /-- How many fill bytes there are before the marker, beside the `0xff` it needs. -/
  fill : Nat
  marker : UInt8
  body : Bytes
  skipped : marker ≠ 0xff ∧ marker ≠ 0xd9 ∧ marker ≠ 0xda ∧ isSof marker = false
  declared : body.length + 2 < 2 ^ 16

/-- A start of frame. -/
structure Frame where
  fill : Nat
  marker : UInt8
  precision : UInt8
  height : UInt16
  width : UInt16
  components : Bytes
  sof : isSof marker = true
  some_component : components ≠ []
  declared : components.length + 7 < 2 ^ 16
  nonzero : height ≠ 0 ∧ width ≠ 0

/-- The bytes before a segment's declared length. -/
def markerBytes (fill : Nat) (marker : UInt8) : Bytes := List.replicate (fill + 1) 0xff ++ [marker]

def Segment.bytes (s : Segment) : Bytes :=
  markerBytes s.fill s.marker ++ (be16Bytes (s.body.length + 2) ++ s.body)

def Frame.bytes (f : Frame) : Bytes :=
  markerBytes f.fill f.marker ++ (be16Bytes (f.components.length + 7) ++
    (f.precision :: (be16Bytes f.height.toNat ++ be16Bytes f.width.toNat) ++ f.components))

theorem be16_bytes {n : Nat} (h : n < 2 ^ 16) :
    be16 (UInt8.ofNat (n / 256)) (UInt8.ofNat (n % 256)) = n := by
  rw [be16, UInt8.toNat_ofNat', UInt8.toNat_ofNat']
  omega

theorem dropWhile_marker {marker : UInt8} (h : marker ≠ 0xff) (fill : Nat) (rest : Bytes) :
    (markerBytes fill marker ++ rest).dropWhile (fun b => b = 0xff) = marker :: rest := by
  rw [markerBytes, List.append_assoc]
  induction fill with
  | zero =>
    rw [List.replicate_one, List.singleton_append, List.dropWhile_cons_of_pos (by simp),
      List.singleton_append, List.dropWhile_cons_of_neg (by simpa using h)]
  | succ fill ih =>
    rw [List.replicate_succ, List.cons_append, List.dropWhile_cons_of_pos (by simp), ih]

/-- The scan goes on behind the fill bytes and the marker. -/
theorem jpegScan_markerBytes {marker : UInt8} (h : marker ≠ 0xff) (fill : Nat) {rest : Bytes}
    (hlen : 8 ≤ rest.length) :
    jpegScan (markerBytes fill marker ++ rest) = segmentScan marker rest := by
  have hcons : markerBytes fill marker ++ rest =
      0xff :: (List.replicate fill 0xff ++ ([marker] ++ rest)) := by
    rw [markerBytes, List.replicate_succ, List.append_assoc, List.cons_append]
  have hd := dropWhile_marker h fill rest
  rw [hcons] at hd ⊢
  refine jpegScan_marker ?_ hd
  simp only [List.length_cons, List.length_append, List.length_replicate, List.length_nil]
  omega

/-- A segment is skipped, if a frame can still follow it. -/
theorem jpegScan_segment (s : Segment) {rest : Bytes} (hlen : 8 ≤ rest.length) :
    jpegScan (s.bytes ++ rest) = jpegScan rest := by
  obtain ⟨hff, hd9, hda, hsof⟩ := s.skipped
  have hbe := be16_bytes s.declared
  rw [Segment.bytes, List.append_assoc, jpegScan_markerBytes hff]
  · have hmarker : ¬ (s.marker = 0xd9 ∨ s.marker = 0xda) := by simp [hd9, hda]
    rw [segmentScan.eq_def, if_neg hmarker]
    simp only [be16Bytes, List.cons_append, List.nil_append, hbe, hsof, List.length_cons,
      List.length_append, Bool.false_eq_true, false_and, ↓reduceIte]
    rw [if_neg (by omega)]
    simp
  · simp only [List.length_append]
    omega

theorem jpegScan_frame (f : Frame) (rest : Bytes) :
    jpegScan (f.bytes ++ rest) = some (f.width.toNat, f.height.toNat) := by
  have hc : 0 < f.components.length := List.length_pos_iff.mpr f.some_component
  have hff : f.marker ≠ 0xff := by
    intro h
    have hs := f.sof
    rw [h] at hs
    revert hs
    decide
  have hmarker : ¬ (f.marker = 0xd9 ∨ f.marker = 0xda) := by
    intro h
    have hs := f.sof
    rcases h with h | h <;>
    · rw [h] at hs
      revert hs
      decide
  have hwidth : f.width.toNat ≠ 0 := by
    intro h
    exact f.nonzero.2 (UInt16.toNat_inj.mp h)
  have hheight : f.height.toNat ≠ 0 := by
    intro h
    exact f.nonzero.1 (UInt16.toNat_inj.mp h)
  rw [Frame.bytes, List.append_assoc, jpegScan_markerBytes hff]
  · rw [segmentScan.eq_def, if_neg hmarker]
    simp only [be16Bytes, List.cons_append, List.nil_append, be16_bytes f.declared,
      be16_bytes f.width.toNat_lt, be16_bytes f.height.toNat_lt, f.sof, List.length_cons,
      List.length_append, hwidth, hheight, or_self, ↓reduceIte, true_and]
    rw [if_neg (by omega), if_pos (by omega)]
  · simp only [be16Bytes, List.length_append, List.length_cons, List.length_nil]
    omega

/-- Segments are skipped up to the frame. -/
theorem jpegScan_segments (segments : List Segment) (f : Frame) (rest : Bytes) :
    jpegScan (segments.flatMap Segment.bytes ++ (f.bytes ++ rest)) =
      some (f.width.toNat, f.height.toNat) := by
  induction segments with
  | nil => exact jpegScan_frame f rest
  | cons s segments ih =>
    rw [List.flatMap_cons, List.append_assoc, jpegScan_segment s, ih]
    have hf : 8 ≤ f.bytes.length := by
      simp only [Frame.bytes, markerBytes, be16Bytes, List.length_append, List.length_cons,
        List.length_nil, List.length_replicate]
      omega
    simp only [List.length_append]
    omega

/-- The function comes to its end without a panic on every slice, and finds the frame behind
well-formed segments, whatever follows it. -/
theorem jpeg_dimensions_exact :
    (∀ (s : Slice) (more : Nat),
      jpegDimensionsChecked (s.bytes.length + 1 + more) s.bytes = .ok (jpegDimensions s.bytes)) ∧
    ∀ (segments : List Segment) (f : Frame) (rest : Bytes),
      jpegDimensions ([0xff, 0xd8] ++ (segments.flatMap Segment.bytes ++ (f.bytes ++ rest))) =
        some (f.width.toNat, f.height.toNat) := by
  constructor
  · intro s more
    exact jpegLoop_eq s.bound (by omega) (by omega)
  · intro segments f rest
    exact jpegScan_segments segments f rest

/-- A JFIF header. -/
def app0 : Segment where
  fill := 0
  marker := 0xe0
  body := [0x4a, 0x46, 0x49, 0x46, 0, 1, 1, 0, 0, 1, 0, 1, 0, 0]
  skipped := by decide
  declared := by decide

/-- A frame of 640 by 480, with one component and a fill byte. -/
def sof0 : Frame where
  fill := 1
  marker := 0xc0
  precision := 8
  height := 480
  width := 640
  components := [1, 1, 0x11, 0]
  sof := rfl
  some_component := List.cons_ne_nil _ _
  declared := by decide
  nonzero := by decide

def smallJpeg : Slice where
  bytes := [0xff, 0xd8] ++ ([app0].flatMap Segment.bytes ++ (sof0.bytes ++ [0xff, 0xd9]))
  bound := by decide

theorem jpeg_dimensions_exact_small :
    jpegDimensionsChecked (smallJpeg.bytes.length + 1) smallJpeg.bytes = .ok (some (640, 480)) := by
  rw [show smallJpeg.bytes.length + 1 = smallJpeg.bytes.length + 1 + 0 from rfl,
    jpeg_dimensions_exact.1 smallJpeg 0]
  exact congrArg Except.ok (jpeg_dimensions_exact.2 [app0] sof0 [0xff, 0xd9])

end Jpeg
end Protocol
end EgoBridge
