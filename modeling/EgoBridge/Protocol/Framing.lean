import EgoBridge.Lib.Stream

/-!
# Protocol.Framing

Frames on a relay stream: a big-endian length of four bytes, then so many bytes.

* `readFrame_stream`   — what is written as a frame is read back, and the rest of the stream left.
* `readFrame_cut`      — a frame that is cut short is a truncation.
* `readFrame_header`   — a length above the maximum is refused with the payload unread.
* `framed_stream`      — a list of frames, and every beginning of it.
-/

namespace EgoBridge
namespace Protocol

/-- `u32::MAX`. -/
def U32_MAX : Nat := 4294967295

inductive FrameError where
  | io (kind : IoErrorKind)
  | tooLarge (length maximum : Nat)
  | truncated
  deriving DecidableEq, Repr

namespace Framing

/-- `u32::to_be_bytes`. -/
def toBeBytes (n : UInt32) : Bytes := [n >>> 24, n >>> 16, n >>> 8, n].map UInt32.toUInt8

/-- `u32::from_be_bytes`. -/
def fromBeBytes (bytes : Bytes) : Nat := bytes.foldl (fun n b => n * 256 + b.toNat) 0

/-- `map_err` of `read_exact`. -/
def readError : IoErrorKind → FrameError
  | .unexpectedEof => .truncated
  | kind => .io kind

/-- Read one big-endian u32 length-prefixed frame. -/
def readFrame (reader : Source) (maximum : Nat) : Except FrameError (Option Bytes) × Source :=
  match reader.read 1 with
  | (.error kind, reader) => (.error (.io kind), reader)
  | (.ok [], reader) => (.ok none, reader)
  | (.ok (first :: _), reader) =>
    match reader.readExact 3 with
    | (.error kind, reader) => (.error (readError kind), reader)
    | (.ok header, reader) =>
      let length := fromBeBytes (first :: header)
      if length > maximum then (.error (.tooLarge length maximum), reader)
      else
        match reader.readExact length with
        | (.error kind, reader) => (.error (readError kind), reader)
        | (.ok frame, reader) => (.ok (some frame), reader)

/-- Write one length-prefixed frame, rejecting lengths that do not fit the wire format. -/
def writeFrame (writer : Sink) (frame : Bytes) (maximum : Nat) : Except FrameError Unit × Sink :=
  if frame.length > maximum ∨ frame.length > U32_MAX then
    (.error (.tooLarge frame.length (min maximum U32_MAX)), writer)
  else
    match writer.writeAll (toBeBytes frame.length.toUInt32) with
    | (.error kind, writer) => (.error (.io kind), writer)
    | (.ok (), writer) =>
      match writer.writeAll frame with
      | (.error kind, writer) => (.error (.io kind), writer)
      | (.ok (), writer) =>
        match writer.flush with
        | (.error kind, writer) => (.error (.io kind), writer)
        | (.ok (), writer) => (.ok (), writer)

/-! ## One frame -/

/-- What is written for a frame. -/
def framed (frame : Bytes) : Bytes := toBeBytes frame.length.toUInt32 ++ frame

@[simp] theorem toBeBytes_length (n : UInt32) : (toBeBytes n).length = 4 := rfl

@[simp] theorem framed_length (frame : Bytes) : (framed frame).length = 4 + frame.length := by
  simp [framed]

theorem fromBeBytes_toBeBytes (n : UInt32) : fromBeBytes (toBeBytes n) = n.toNat := by
  have h := n.toNat_lt
  simp only [fromBeBytes, toBeBytes, List.map_cons, List.map_nil, List.foldl_cons, List.foldl_nil,
    UInt32.toNat_toUInt8, UInt32.toNat_shiftRight, Nat.shiftRight_eq_div_pow,
    UInt32.reduceToNat, Nat.reduceMod, Nat.reducePow]
  omega

theorem toUInt32_toNat {n : Nat} (h : n ≤ U32_MAX) : n.toUInt32.toNat = n := by
  rw [U32_MAX] at h
  exact UInt32.toNat_ofNat_of_lt' (Nat.lt_succ_of_le h)

theorem writeFrame_ok (taken : Nat → Nat) (sent : Bytes) (calls : Nat) {frame : Bytes}
    {maximum : Nat} (hf : frame.length ≤ min maximum U32_MAX) :
    ∃ calls', writeFrame (.quiet sent taken calls) frame maximum =
      (.ok (), .quiet (sent ++ framed frame) taken calls') := by
  obtain ⟨calls₁, hheader⟩ :=
    Sink.writeAll_ok taken sent (toBeBytes frame.length.toUInt32) calls
  obtain ⟨calls₂, hframe⟩ :=
    Sink.writeAll_ok taken (sent ++ toBeBytes frame.length.toUInt32) frame calls₁
  refine ⟨calls₂ + 1, ?_⟩
  rw [writeFrame, if_neg (by omega), hheader]
  dsimp only
  rw [hframe]
  dsimp only
  rw [Sink.flush_ok, framed, List.append_assoc]

/-- A frame that is too long is refused before anything is written. -/
theorem writeFrame_tooLarge {writer : Sink} {frame : Bytes} {maximum : Nat}
    (hf : min maximum U32_MAX < frame.length) :
    writeFrame writer frame maximum =
      (.error (.tooLarge frame.length (min maximum U32_MAX)), writer) := by
  rw [writeFrame, if_pos (by omega)]

section

variable (given : Nat → Nat)

/-- A header that is there is read whole, and the payload only if the length is admitted. -/
theorem readFrame_header (length : UInt32) (payload : Bytes) (calls maximum : Nat) :
    ∃ calls', readFrame (.quiet (toBeBytes length ++ payload) given calls) maximum =
      if length.toNat > maximum then
        (.error (.tooLarge length.toNat maximum), .quiet payload given calls')
      else
        match (Source.quiet payload given calls').readExact length.toNat with
        | (.error kind, reader) => (.error (readError kind), reader)
        | (.ok frame, reader) => (.ok (some frame), reader) := by
  obtain ⟨b, tail, hb, htail⟩ : ∃ b tail, toBeBytes length = b :: tail ∧ tail.length = 3 :=
    ⟨_, _, rfl, rfl⟩
  obtain ⟨n, hn, hn1, -, hread⟩ :=
    Source.read_quiet given (b :: (tail ++ payload)) 1 calls (by simp) Nat.one_pos
  obtain rfl : n = 1 := by omega
  obtain ⟨calls', hexact⟩ :=
    Source.readExact_ok given (tail ++ payload) 3 (calls + 1) (by simp [htail])
  rw [List.take_left' htail, List.drop_left' htail] at hexact
  refine ⟨calls', ?_⟩
  rw [readFrame, hb, List.cons_append, hread]
  simp only [List.take_succ_cons, List.take_zero, List.drop_succ_cons, List.drop_zero, hexact]
  rw [← hb, fromBeBytes_toBeBytes]

end

section

variable (given : Nat → Nat)

/-- What is written as a frame is read back, and the rest of the stream is left. -/
theorem readFrame_stream {frame : Bytes} {maximum : Nat} (hf : frame.length ≤ min maximum U32_MAX)
    (rest : Bytes) (calls : Nat) :
    ∃ calls', readFrame (.quiet (framed frame ++ rest) given calls) maximum =
      (.ok (some frame), .quiet rest given calls') := by
  obtain ⟨calls₁, hheader⟩ :=
    readFrame_header given frame.length.toUInt32 (frame ++ rest) calls maximum
  rw [toUInt32_toNat (by omega), if_neg (by omega)] at hheader
  obtain ⟨calls₂, hexact⟩ :=
    Source.readExact_ok given (frame ++ rest) frame.length calls₁ (by simp)
  rw [List.take_left, List.drop_left] at hexact
  refine ⟨calls₂, ?_⟩
  rw [framed, List.append_assoc, hheader, hexact]

/-- The stream ends at a boundary. -/
theorem readFrame_end (calls maximum : Nat) :
    readFrame (.quiet [] given calls) maximum = (.ok none, .quiet [] given (calls + 1)) := by
  rw [readFrame, Source.read_nil]

/-- Fewer bytes than a header are a truncation. -/
theorem readFrame_short {bytes : Bytes} (h0 : bytes ≠ []) (h4 : bytes.length < 4)
    (calls : Nat) {maximum : Nat} :
    (readFrame (.quiet bytes given calls) maximum).1 = .error .truncated := by
  obtain ⟨n, hn, hn1, hnb, hread⟩ := Source.read_quiet given bytes 1 calls h0 Nat.one_pos
  obtain ⟨b, bs, hcons, hlen⟩ := Source.take_eq_cons hn hnb
  have hshort := Source.readExact_short given (bytes.drop n) 3 (calls + 1)
    (by rw [List.length_drop]; omega)
  rw [readFrame, hread, hcons]
  dsimp only
  split
  · rename_i h
    rw [h] at hshort
    cases hshort
    rfl
  · rename_i h
    rw [h] at hshort
    cases hshort

/-- A frame that is cut short, in its header or in its payload, is a truncation. -/
theorem readFrame_cut {frame : Bytes} {maximum : Nat} (hf : frame.length ≤ min maximum U32_MAX)
    {k : Nat} (h0 : 0 < k) (hk : k < (framed frame).length) (calls : Nat) :
    (readFrame (.quiet ((framed frame).take k) given calls) maximum).1 = .error .truncated := by
  rw [framed_length] at hk
  by_cases hheader : 4 ≤ k
  · -- in the payload
    have hcut : (framed frame).take k =
        toBeBytes frame.length.toUInt32 ++ frame.take (k - 4) := by
      rw [framed, List.take_append, List.take_of_length_le (by simpa using hheader),
        toBeBytes_length]
    obtain ⟨calls', h⟩ :=
      readFrame_header given frame.length.toUInt32 (frame.take (k - 4)) calls maximum
    rw [toUInt32_toNat (by omega), if_neg (by omega)] at h
    have hshort := Source.readExact_short given (frame.take (k - 4)) frame.length calls'
      (by rw [List.length_take]; omega)
    rw [hcut, h]
    split
    · rename_i hread
      rw [hread] at hshort
      cases hshort
      rfl
    · rename_i hread
      rw [hread] at hshort
      cases hshort
  · -- in the header
    refine readFrame_short given ?_ ?_ calls
    · rw [← List.length_pos_iff, List.length_take, framed_length]
      omega
    · rw [List.length_take]
      omega

end

/-! ## A list of frames -/

theorem readFrame_shorter {reader reader' : Source} {maximum : Nat} {frame : Bytes}
    (h : readFrame reader maximum = (.ok (some frame), reader')) :
    reader'.rest.length < reader.rest.length := by
  unfold readFrame at h
  split at h
  · cases h
  · cases h
  · rename_i first _ reader₁ hread
    have hfirst := Source.read_cons hread
    have hheader := Source.readExact_le reader₁ 3
    split at h
    · cases h
    · rename_i header reader₂ hexact
      rw [hexact] at hheader
      dsimp only at h hheader
      split at h
      · cases h
      · have hpayload := Source.readExact_le reader₂ (fromBeBytes (first :: header))
        split at h
        · cases h
        · rename_i hexact'
          rw [hexact'] at hpayload
          cases h
          dsimp only at hpayload
          omega

/-- Read frames until the stream ends or a read fails. -/
def readFrames (reader : Source) (maximum : Nat) : List Bytes × Except FrameError Unit :=
  match _h : readFrame reader maximum with
  | (.error e, _) => ([], .error e)
  | (.ok none, _) => ([], .ok ())
  | (.ok (some frame), reader) =>
    let (frames, ending) := readFrames reader maximum
    (frame :: frames, ending)
termination_by reader.rest.length
decreasing_by exact readFrame_shorter _h

/-- Write frames one after another, until one is refused or a write fails. -/
def writeFrames (writer : Sink) (maximum : Nat) : List Bytes → Except FrameError Unit × Sink
  | [] => (.ok (), writer)
  | frame :: frames =>
    match writeFrame writer frame maximum with
    | (.error e, writer) => (.error e, writer)
    | (.ok (), writer) => writeFrames writer maximum frames

/-- What is written for a list of frames. -/
def stream (frames : List Bytes) : Bytes := frames.flatMap framed

@[simp] theorem stream_nil : stream [] = [] := rfl

@[simp] theorem stream_cons (frame : Bytes) (frames : List Bytes) :
    stream (frame :: frames) = framed frame ++ stream frames := rfl

theorem writeFrames_ok (taken : Nat → Nat) {maximum : Nat} (frames : List Bytes)
    (hf : ∀ frame ∈ frames, frame.length ≤ min maximum U32_MAX) (sent : Bytes) (calls : Nat) :
    ∃ calls', writeFrames (.quiet sent taken calls) maximum frames =
      (.ok (), .quiet (sent ++ stream frames) taken calls') := by
  induction frames generalizing sent calls with
  | nil => exact ⟨calls, by simp [writeFrames]⟩
  | cons frame frames ih =>
    obtain ⟨calls₁, hwrite⟩ := writeFrame_ok taken sent calls (hf frame List.mem_cons_self)
    obtain ⟨calls₂, hrest⟩ := ih (fun f h => hf f (List.mem_cons_of_mem _ h))
      (sent ++ framed frame) calls₁
    refine ⟨calls₂, ?_⟩
    rw [writeFrames, hwrite, stream_cons, ← List.append_assoc]
    exact hrest

section

variable (given : Nat → Nat)

theorem readFrames_cons {frame : Bytes} {maximum : Nat}
    (hf : frame.length ≤ min maximum U32_MAX) (rest : Bytes) (calls : Nat) :
    ∃ calls', readFrames (.quiet (framed frame ++ rest) given calls) maximum =
      (frame :: (readFrames (.quiet rest given calls') maximum).1,
        (readFrames (.quiet rest given calls') maximum).2) := by
  obtain ⟨calls', h⟩ := readFrame_stream given hf rest calls
  refine ⟨calls', ?_⟩
  rw [readFrames]
  split
  · rename_i h'
    rw [h] at h'
    cases h'
  · rename_i h'
    rw [h] at h'
    cases h'
  · rename_i h'
    rw [h] at h'
    cases h'
    rfl

theorem readFrames_nil (calls maximum : Nat) :
    readFrames (.quiet [] given calls) maximum = ([], .ok ()) := by
  have h := readFrame_end given calls maximum
  rw [readFrames]
  split
  · rename_i h'
    rw [h] at h'
    cases h'
  · rfl
  · rename_i h'
    rw [h] at h'
    cases h'

theorem readFrames_error {reader : Source} {maximum : Nat} {e : FrameError}
    (h : (readFrame reader maximum).1 = .error e) :
    readFrames reader maximum = ([], .error e) := by
  rw [readFrames]
  split
  · rename_i h'
    rw [h'] at h
    cases h
    rfl
  · rename_i h'
    rw [h'] at h
    cases h
  · rename_i h'
    rw [h'] at h
    cases h

theorem readFrames_stream {maximum : Nat} (frames : List Bytes)
    (hf : ∀ frame ∈ frames, frame.length ≤ min maximum U32_MAX) (calls : Nat) :
    readFrames (.quiet (stream frames) given calls) maximum = (frames, .ok ()) := by
  induction frames generalizing calls with
  | nil => exact readFrames_nil given calls maximum
  | cons frame frames ih =>
    obtain ⟨calls', h⟩ :=
      readFrames_cons given (hf frame List.mem_cons_self) (stream frames) calls
    rw [stream_cons, h, ih fun f h => hf f (List.mem_cons_of_mem _ h)]

end

/-- A cut between two frames, or at either end of the stream. -/
def OnBoundary (frames : List Bytes) (k : Nat) : Prop :=
  ∃ n ≤ frames.length, k = (stream (frames.take n)).length

instance (frames : List Bytes) (k : Nat) : Decidable (OnBoundary frames k) :=
  inferInstanceAs (Decidable (∃ n ≤ frames.length, _))

theorem onBoundary_zero (frames : List Bytes) : OnBoundary frames 0 := ⟨0, Nat.zero_le _, rfl⟩

theorem onBoundary_cons {frame : Bytes} {frames : List Bytes} {k : Nat} (hk : 0 < k) :
    OnBoundary (frame :: frames) k ↔
      (framed frame).length ≤ k ∧ OnBoundary frames (k - (framed frame).length) := by
  constructor
  · rintro ⟨n, hn, h⟩
    cases n with
    | zero =>
      rw [List.take_zero, stream_nil, List.length_nil] at h
      omega
    | succ n =>
      rw [List.take_succ_cons, stream_cons, List.length_append] at h
      exact ⟨by omega, n, Nat.le_of_succ_le_succ hn, by omega⟩
  · rintro ⟨hle, n, hn, h⟩
    refine ⟨n + 1, Nat.succ_le_succ hn, ?_⟩
    rw [List.take_succ_cons, stream_cons, List.length_append]
    omega

/-- The number of frames that end before a cut. -/
def Whole (frames : List Bytes) (k n : Nat) : Prop :=
  n ≤ frames.length ∧ ∀ m ≤ frames.length, (stream (frames.take m)).length ≤ k ↔ m ≤ n

theorem whole_cut {frame : Bytes} {frames : List Bytes} {k : Nat}
    (hk : k < (framed frame).length) : Whole (frame :: frames) k 0 := by
  refine ⟨Nat.zero_le _, fun m _ => ?_⟩
  cases m with
  | zero => simp
  | succ m =>
    rw [List.take_succ_cons, stream_cons, List.length_append]
    omega

theorem whole_cons {frame : Bytes} {frames : List Bytes} {k n : Nat}
    (h : Whole frames (k - (framed frame).length) n) (hk : (framed frame).length ≤ k) :
    Whole (frame :: frames) k (n + 1) := by
  refine ⟨Nat.succ_le_succ h.1, fun m hm => ?_⟩
  cases m with
  | zero => simp
  | succ m =>
    have := h.2 m (Nat.le_of_succ_le_succ hm)
    rw [List.take_succ_cons, stream_cons, List.length_append]
    omega

/-- Of a stream that is cut the frames before the cut are read, and then a truncation unless it
falls on a boundary. -/
theorem readFrames_cut (given : Nat → Nat) {maximum : Nat} (frames : List Bytes)
    (hf : ∀ frame ∈ frames, frame.length ≤ min maximum U32_MAX) {k : Nat}
    (hk : k ≤ (stream frames).length) (calls : Nat) :
    ∃ n, Whole frames k n ∧ readFrames (.quiet ((stream frames).take k) given calls) maximum =
      (frames.take n, if OnBoundary frames k then .ok () else .error .truncated) := by
  induction frames generalizing k calls with
  | nil =>
    obtain rfl : k = 0 := Nat.le_zero.mp hk
    refine ⟨0, ⟨Nat.le_refl _, fun m hm => by simpa using hm⟩, ?_⟩
    rw [if_pos (onBoundary_zero _), List.take_zero]
    exact readFrames_nil given calls maximum
  | cons frame frames ih =>
    have hframe := hf frame List.mem_cons_self
    by_cases hcut : k < (framed frame).length
    · -- inside the first frame, or before it
      refine ⟨0, whole_cut hcut, ?_⟩
      have htake : (stream (frame :: frames)).take k = (framed frame).take k := by
        rw [stream_cons, List.take_append_of_le_length (Nat.le_of_lt hcut)]
      rw [htake, List.take_zero]
      by_cases h0 : k = 0
      · rw [h0, List.take_zero, if_pos (onBoundary_zero _)]
        exact readFrames_nil given calls maximum
      · have hpos := Nat.pos_of_ne_zero h0
        rw [if_neg fun h => Nat.not_le.mpr hcut ((onBoundary_cons hpos).mp h).1]
        exact readFrames_error (readFrame_cut given hframe hpos hcut calls)
    · -- behind the first frame
      have hle : (framed frame).length ≤ k := Nat.le_of_not_lt hcut
      have hpos : 0 < k := Nat.lt_of_lt_of_le (by simp) hle
      obtain ⟨calls', hread⟩ := readFrames_cons given hframe
        ((stream frames).take (k - (framed frame).length)) calls
      rw [stream_cons, List.length_append] at hk
      obtain ⟨n, hn, hrest⟩ := ih (fun f h => hf f (List.mem_cons_of_mem _ h))
        (k := k - (framed frame).length) (by omega) calls'
      have htake : (stream (frame :: frames)).take k =
          framed frame ++ (stream frames).take (k - (framed frame).length) := by
        rw [stream_cons, List.take_append, List.take_of_length_le hle]
      refine ⟨n + 1, whole_cons hn hle, ?_⟩
      rw [htake, hread, hrest, List.take_succ_cons]
      simp only [onBoundary_cons hpos, hle, true_and]

/-- A stream of frames read back whole or cut short, whatever the sink takes and the source gives
at each call. -/
theorem framed_stream (frames : List Bytes) (maximum : Nat)
    (hf : ∀ frame ∈ frames, frame.length ≤ min maximum U32_MAX) (taken given : Nat → Nat) :
    ∃ writer, writeFrames (.quiet [] taken 0) maximum frames = (.ok (), writer) ∧
      readFrames (.quiet writer.sent given 0) maximum = (frames, .ok ()) ∧
      (∀ k < writer.sent.length, ∃ n, Whole frames k n ∧
        readFrames (.quiet (writer.sent.take k) given 0) maximum =
          (frames.take n, if OnBoundary frames k then .ok () else .error .truncated)) ∧
      ∀ (length : UInt32) (payload : Bytes) (calls : Nat), maximum < length.toNat → ∃ calls',
        readFrame (.quiet (toBeBytes length ++ payload) given calls) maximum =
          (.error (.tooLarge length.toNat maximum), .quiet payload given calls') := by
  obtain ⟨calls, hwrite⟩ := writeFrames_ok taken frames hf [] 0
  refine ⟨_, hwrite, ?_, ?_, ?_⟩
  · exact readFrames_stream given frames hf 0
  · intro k hk
    exact readFrames_cut given frames hf (Nat.le_of_lt hk) 0
  · intro length payload calls hlength
    obtain ⟨calls', h⟩ := readFrame_header given length payload calls maximum
    rw [if_pos hlength] at h
    exact ⟨calls', h⟩

/-- Two frames, one of them empty. -/
theorem framed_stream_two :
    (∀ frame ∈ ([[104, 105], []] : List Bytes), frame.length ≤ min 16 U32_MAX) ∧
      ∃ writer, writeFrames (.quiet [] (fun _ => 0) 0) 16 [[104, 105], []] = (.ok (), writer) ∧
        readFrames (.quiet writer.sent (fun _ => 0) 0) 16 = ([[104, 105], []], .ok ()) := by
  have hf : ∀ frame ∈ ([[104, 105], []] : List Bytes), frame.length ≤ min 16 U32_MAX := by decide
  obtain ⟨writer, hwrite, hread, -⟩ :=
    framed_stream [[104, 105], []] 16 hf (fun _ => 0) (fun _ => 0)
  exact ⟨hf, writer, hwrite, hread⟩

end Framing
end Protocol
end EgoBridge
