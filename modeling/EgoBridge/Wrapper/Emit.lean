import EgoBridge.Wrapper.Response

/-!
# Wrapper.Emit

The wrapper's checks on the artifacts of a response, before it writes them to files.

The directory they are written to is not modelled: a file is its name there and its content.

* `imageDimensions_eq` — the wrapper reads an image as the collector does.
* `artifacts_emitted`  — what the collector accepts, the wrapper accepts.
-/

namespace EgoBridge
namespace Wrapper

open Protocol

def MAX_ARTIFACT_COUNT : Nat := 32

/-! ## Dimensions -/

/-- The loop of `jpeg_dimensions`, on the bytes from its index on. -/
def jpegScan (rest : Bytes) : Option (Nat × Nat) :=
  if rest.length ≤ 9 then none
  else if rest.head? ≠ some 0xff then jpegScan (rest.drop 1)
  else
    match _hd : rest.dropWhile (fun b => b = 0xff) with
    | [] => none
    | marker :: segment =>
      if marker = 0xd9 ∨ marker = 0xda ∨ segment.length < 2 then none
      else
        match segment with
        | high :: low :: body =>
          let length := be16 high low
          if length < 2 ∨ (high :: low :: body).length < length then none
          else if ((0xc0 ≤ marker ∧ marker ≤ 0xc3) ∨ (0xc5 ≤ marker ∧ marker ≤ 0xc7) ∨
              (0xc9 ≤ marker ∧ marker ≤ 0xcb) ∨ (0xcd ≤ marker ∧ marker ≤ 0xcf)) ∧ 7 ≤ length then
            match body with
            | _ :: h1 :: h0 :: w1 :: w0 :: _ => some (be16 w1 w0, be16 h1 h0)
            | _ => none
          else jpegScan ((high :: low :: body).drop length)
        | _ => none
termination_by rest.length
decreasing_by
  · simp only [List.length_drop]
    omega
  · have hle := (List.dropWhile_suffix (fun b : UInt8 => decide (b = 0xff)) (l := rest)).length_le
    rw [_hd] at hle
    simp only [List.length_drop, List.length_cons] at hle ⊢
    omega

def jpegDimensions (bytes : Bytes) : Option (Nat × Nat) := jpegScan (bytes.drop 2)

/-- The media type of an image, with its width and height. -/
def imageDimensions (bytes : Bytes) : Option (String × UInt32 × UInt32) :=
  match pngSignature.isPrefixOf bytes, bytes.drop 16 with
  | true, w3 :: w2 :: w1 :: w0 :: h3 :: h2 :: h1 :: h0 :: _ =>
    let width := be32 w3 w2 w1 w0
    let height := be32 h3 h2 h1 h0
    if width ≠ 0 ∧ height ≠ 0 then
      some ("image/png", UInt32.ofNat width, UInt32.ofNat height)
    else none
  | _, _ =>
    if [0xff, 0xd8].isPrefixOf bytes then
      match jpegDimensions bytes with
      | none => none
      | some (width, height) =>
        if width ≠ 0 ∧ height ≠ 0 then
          some ("image/jpeg", UInt32.ofNat width, UInt32.ofNat height)
        else none
    else none

/-! ## Checks -/

def decodeCanonicalB64 (value : String) : Except WrapperError Bytes :=
  match Base64.decode value.toList with
  | none => .error (.protocol "invalid artifact encoding")
  | some bytes =>
    if encodeB64url bytes ≠ value then .error (.protocol "non-canonical artifact encoding")
    else .ok bytes

/-- Letters, digits and `._-`. -/
def isIdByte (b : UInt8) : Bool :=
  (0x30 ≤ b && b ≤ 0x39) || (0x41 ≤ b && b ≤ 0x5a) || (0x61 ≤ b && b ≤ 0x7a) ||
    b = 0x2e || b = 0x5f || b = 0x2d

/-- One turn of the loop in `emit_response`: the file an artifact becomes. -/
def artifactFile (total : Nat) (artifact : ArtifactDescriptor) :
    Except WrapperError (String × Bytes) := do
  let bytes ← decodeCanonicalB64 artifact.contentB64
  if artifact.mediaType ≠ "image/png" ∧ artifact.mediaType ≠ "image/jpeg" then
    .error (.protocol "unsupported artifact media type")
  else if artifact.artifactId.isEmpty ∨ 128 < (utf8 artifact.artifactId).length ∨
      ¬ (utf8 artifact.artifactId).all isIdByte then
    .error (.protocol "invalid artifact id")
  else if MAX_ARTIFACT_BYTES < bytes.length ∨ UInt64.ofNat bytes.length ≠ artifact.sizeBytes ∨
      MAX_ARTIFACT_BYTES < total + bytes.length then
    .error (.protocol "artifact size limit exceeded")
  else
    match imageDimensions bytes with
    | none => .error (.protocol "invalid artifact image")
    | some (mediaType, width, height) =>
      if mediaType ≠ artifact.mediaType ∨ width ≠ artifact.width ∨ height ≠ artifact.height ∨
          width = 0 ∨ height = 0 ∨
          MAX_ARTIFACT_PIXELS < satMul width.toUInt64 height.toUInt64 then
        .error (.protocol "artifact metadata mismatch")
      else
        let extension := if mediaType = "image/png" then "png" else "jpg"
        .ok (artifact.artifactId ++ "." ++ extension, bytes)

def artifactFilesLoop (total : Nat) :
    List ArtifactDescriptor → Except WrapperError (List (String × Bytes))
  | [] => .ok []
  | artifact :: artifacts => do
    let file ← artifactFile total artifact
    let files ← artifactFilesLoop (total + file.2.length) artifacts
    .ok (file :: files)

/-- What `emit_response` makes of the artifacts before it writes anything. -/
def artifactFiles (artifacts : List ArtifactDescriptor) :
    Except WrapperError (List (String × Bytes)) :=
  if MAX_ARTIFACT_COUNT < artifacts.length then .error (.protocol "too many artifacts")
  else artifactFilesLoop 0 artifacts

/-! ## The two readings of an image -/

/-- The loop at a marker. -/
theorem jpegScan_marker {rest segment : Bytes} {marker : UInt8} (hl : ¬ rest.length ≤ 9)
    (hh : ¬ rest.head? ≠ some 0xff)
    (hd : rest.dropWhile (fun b => b = 0xff) = marker :: segment) :
    jpegScan rest =
      if marker = 0xd9 ∨ marker = 0xda ∨ segment.length < 2 then none
      else
        match segment with
        | high :: low :: body =>
          let length := be16 high low
          if length < 2 ∨ (high :: low :: body).length < length then none
          else if isSof marker ∧ 7 ≤ length then
            match body with
            | _ :: h1 :: h0 :: w1 :: w0 :: _ => some (be16 w1 w0, be16 h1 h0)
            | _ => none
          else jpegScan ((high :: low :: body).drop length)
        | _ => none := by
  rw [jpegScan, if_neg hl, if_neg hh]
  split
  · rename_i he
    rw [hd] at he
    cases he
  · rename_i he
    rw [hd] at he
    cases he
    simp only [isSof, Bool.or_eq_true, Bool.and_eq_true, decide_eq_true_eq, or_assoc]
    -- the match on the segment, without the proof it carries along
    rcases segment with _ | ⟨high, _ | ⟨low, body⟩⟩
    · rfl
    · rfl
    · rcases body with _ | ⟨b, _ | ⟨h1, _ | ⟨h0, _ | ⟨w1, _ | ⟨w0, tail⟩⟩⟩⟩⟩ <;> rfl

theorem jpegScan_eq (rest : Bytes) :
    Protocol.jpegScan rest = (jpegScan rest).filter fun d => d.1 ≠ 0 ∧ d.2 ≠ 0 := by
  fun_induction Protocol.jpegScan rest with
  | case1 rest hl =>
    rw [jpegScan, if_pos hl]
    rfl
  | case2 rest hl hh ih => rw [jpegScan, if_neg hl, if_pos hh, ih]
  | case3 rest hl hh hd =>
    rw [jpegScan, if_neg hl, if_neg hh]
    split
    · rfl
    · rename_i he
      rw [hd] at he
      cases he
  | case4 rest hl hh marker segment hd hm =>
    rw [jpegScan_marker hl hh hd, if_pos (by tauto)]
    rfl
  | case5 rest hl hh marker hm high low body hd length hle =>
    rw [jpegScan_marker hl hh hd, if_neg (by simp; tauto)]
    dsimp only
    rw [if_pos hle]
    rfl
  | case6 rest hl hh marker hm high low length hs b h1 h0 w1 w0 tail hd hz _ hle =>
    rw [jpegScan_marker hl hh hd, if_neg (by simp; tauto)]
    dsimp only
    rw [if_neg hle, if_pos hs, Option.filter_some, if_neg]
    rw [decide_eq_true_eq]
    exact fun hne => hz.elim hne.1 hne.2
  | case7 rest hl hh marker hm high low length hs b h1 h0 w1 w0 tail hd hz _ hle =>
    rw [jpegScan_marker hl hh hd, if_neg (by simp; tauto)]
    dsimp only
    rw [if_neg hle, if_pos hs, Option.filter_some, if_pos]
    rw [decide_eq_true_eq]
    exact not_or.mp hz
  | case8 rest hl hh marker hm high low body hd length hle hs _ hbody =>
    rw [jpegScan_marker hl hh hd, if_neg (by simp; tauto)]
    dsimp only
    rw [if_neg hle, if_pos hs]
    split
    · rename_i b h1 h0 w1 w0 tail _ _
      exact (hbody b h1 h0 w1 w0 tail hd rfl HEq.rfl).elim
    · rfl
  | case9 rest hl hh marker hm high low body hd length hle hs _ ih =>
    rw [jpegScan_marker hl hh hd, if_neg (by simp; tauto)]
    dsimp only
    rw [if_neg hle, if_neg hs, ih]
  | case10 rest hl hh marker segment hd hm _ hsegment =>
    rw [jpegScan_marker hl hh hd]
    split
    · rfl
    · split
      · exact (hsegment _ _ _ hd rfl HEq.rfl).elim
      · rfl

/-- The wrapper reads an image as the collector does. -/
theorem imageDimensions_eq (bytes : Bytes) : imageDimensions bytes = dimensions bytes := by
  rw [imageDimensions.eq_def]
  split
  · rename_i hs hd
    rw [dimensions.eq_def]
    simp only [hs, hd]
    split
    · rename_i hne
      rw [if_neg (not_or.mpr hne)]
    · rename_i hz
      rw [if_pos (by_contra fun h => hz (not_or.mp h))]
  · rename_i hno
    have hjpeg : dimensions bytes =
        if [0xff, 0xd8].isPrefixOf bytes then
          (Protocol.jpegScan (bytes.drop 2)).map fun d =>
            ("image/jpeg", UInt32.ofNat d.1, UInt32.ofNat d.2)
        else none := by
      rw [dimensions.eq_def]
      split
      · rename_i hs hd
        exact (hno _ _ _ _ _ _ _ _ _ hs hd).elim
      · rfl
    rw [hjpeg, jpegScan_eq, jpegDimensions]
    split
    · cases jpegScan (bytes.drop 2) with
      | none => rfl
      | some d =>
        dsimp only
        rw [Option.filter_some]
        simp only [decide_eq_true_eq]
        split <;> rfl
    · rfl

/-! ## What the collector accepts -/

theorem decodeCanonicalB64_encode (bytes : Bytes) :
    decodeCanonicalB64 (encodeB64url bytes) = .ok bytes := by
  rw [decodeCanonicalB64, encodeB64url, String.toList_ofList, Base64.decode_encode]
  dsimp only
  rw [if_neg (by simp [encodeB64url])]

theorem isHexByte_isIdByte {b : UInt8} (h : isHexByte b = true) : isIdByte b = true := by
  simp only [isHexByte, isIdByte, Bool.or_eq_true, Bool.and_eq_true, decide_eq_true_eq,
    UInt8.le_iff_toNat_le, ← UInt8.toNat_inj, UInt8.reduceToNat] at h ⊢
  omega

theorem opaqueId_fileName (id : OpaqueId) :
    ¬ (id.text.isEmpty ∨ 128 < (utf8 id.text).length ∨ ¬ (utf8 id.text).all isIdByte) := by
  have hne : id.text.isEmpty = false := by
    cases h : id.text.isEmpty with
    | false => rfl
    | true =>
      have hl := id.length_eq
      rw [String.isEmpty_iff.mp h] at hl
      cases hl
  have hall : (utf8 id.text).all isIdByte = true :=
    List.all_eq_true.mpr fun b hb => isHexByte_isIdByte (List.all_eq_true.mp id.hex b hb)
  rw [hne, id.length_eq, hall]
  decide

theorem artifactFile_ok {d : ArtifactDescriptor} {bytes : Bytes} {total : Nat}
    (h : Describes .default d bytes) (ht : total + bytes.length ≤ MAX_ARTIFACT_BYTES) :
    ∃ name, artifactFile total d = .ok (name, bytes) := by
  obtain ⟨hmedia, hw, hh⟩ := dimensions_some h.image
  obtain ⟨id, hid⟩ := h.artifactId
  have hb := h.bounded
  refine ⟨d.artifactId ++ "." ++ if d.mediaType = "image/png" then "png" else "jpg", ?_⟩
  rw [artifactFile, h.content, decodeCanonicalB64_encode, ok_bind, if_neg (by tauto), hid,
    if_neg (opaqueId_fileName id), if_neg, imageDimensions_eq, h.image]
  · dsimp only
    rw [if_neg]
    simp only [ne_eq, not_true, false_or, hw, hh]
    exact UInt64.not_lt.mpr h.pixels
  · rw [h.size]
    simp only [ne_eq, not_true, false_or, not_or]
    exact ⟨Nat.not_lt.mpr hb, Nat.not_lt.mpr ht⟩

theorem artifactFilesLoop_ok {artifacts : List ArtifactDescriptor} {raws : List Bytes}
    (h : List.Forall₂ (Describes .default) artifacts raws) (total : Nat)
    (ht : total + (raws.map List.length).sum ≤ MAX_ARTIFACT_BYTES) :
    ∃ files, artifactFilesLoop total artifacts = .ok files ∧ files.map Prod.snd = raws := by
  induction h generalizing total with
  | nil => exact ⟨[], rfl, rfl⟩
  | @cons d bytes artifacts raws hd _ ih =>
    rw [List.map_cons, List.sum_cons] at ht
    have hfile : total + bytes.length ≤ MAX_ARTIFACT_BYTES := by omega
    obtain ⟨name, hname⟩ := artifactFile_ok hd hfile
    obtain ⟨files, hfiles, hraws⟩ := ih (total + bytes.length) (by omega)
    refine ⟨(name, bytes) :: files, ?_, by rw [List.map_cons, hraws]⟩
    rw [artifactFilesLoop, hname, ok_bind, hfiles, ok_bind]

/-- **The producer and the consumer agree.** What is collected is emitted, file by file, and any
bytes are the same image to both, or none. -/
theorem artifacts_emitted :
    (∀ root artifacts, collectArtifacts .default root = .ok artifacts →
      ∃ files, artifactFiles artifacts = .ok files ∧
        artifacts.map ArtifactDescriptor.contentB64 = files.map fun file => encodeB64url file.2) ∧
    ∀ bytes, imageDimensions bytes = dimensions bytes := by
  refine ⟨fun root artifacts h => ?_, imageDimensions_eq⟩
  obtain ⟨raws, hc⟩ := collectArtifacts_describes h
  obtain ⟨files, hfiles, hraws⟩ := artifactFilesLoop_ok hc.describes 0 (by
    rw [Nat.zero_add]
    exact hc.total)
  refine ⟨files, ?_, ?_⟩
  · have hcount : ¬ MAX_ARTIFACT_COUNT < artifacts.length := Nat.not_lt.mpr hc.count
    rw [artifactFiles, if_neg hcount]
    exact hfiles
  · rw [hc.contents, ← hraws, List.map_map]
    rfl

theorem fullImage_emitted :
    ∃ files, artifactFiles [fullArtifact] = .ok files ∧
      [fullArtifact].map ArtifactDescriptor.contentB64 =
        files.map fun file => encodeB64url file.2 :=
  artifacts_emitted.1 _ _ fullImage_collected

end Wrapper
end EgoBridge
