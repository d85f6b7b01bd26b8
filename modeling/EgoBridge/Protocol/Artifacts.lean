import Mathlib.Data.List.Forall2
import EgoBridge.Lib.Sat
import EgoBridge.Protocol.Outer
import EgoBridge.Protocol.Permit

/-!
# Protocol.Artifacts

Collecting the images a request left behind, within limits on their number and bytes.

The directory walk is not modelled: a candidate is what the file system says of one file when it
is looked at and when it is read, and the candidates come in the order of their paths.

* `collectArtifacts_describes` — every descriptor is that of an image within the limits.
* `collectArtifacts_ok`         — what is collected has at most so many files, of at most so many
  bytes.
-/

namespace EgoBridge
namespace Protocol

structure ArtifactLimits where
  maxBytes : Nat
  maxPixels : UInt64
  maxCount : Nat
  maxTotalBytes : Nat
  deriving DecidableEq

def MAX_ARTIFACT_PIXELS : UInt64 := 4000000

/-- `ArtifactLimits::default`, and what `run_process` gives. -/
def ArtifactLimits.default : ArtifactLimits :=
  ⟨MAX_ARTIFACT_BYTES, MAX_ARTIFACT_PIXELS, 32, MAX_ARTIFACT_BYTES⟩

inductive ArtifactError where
  | invalidRoot
  | unsafeRoot
  | hardLink
  | symlink
  | outsideRoot
  | invalidFile
  | unsupportedMedia
  | sizeLimit
  | pixelLimit
  | totalLimit
  | countLimit
  | io
  deriving DecidableEq, Repr

/-! ## Dimensions -/

def be16 (h l : UInt8) : Nat := h.toNat * 256 + l.toNat

def be32 (a b c d : UInt8) : Nat := be16 a b * 65536 + be16 c d

def pngSignature : Bytes := [0x89, 0x50, 0x4e, 0x47, 0x0d, 0x0a, 0x1a, 0x0a]

def isSof (marker : UInt8) : Bool :=
  (0xc0 ≤ marker && marker ≤ 0xc3) || (0xc5 ≤ marker && marker ≤ 0xc7) ||
    (0xc9 ≤ marker && marker ≤ 0xcb) || (0xcd ≤ marker && marker ≤ 0xcf)

/-- The loop of `jpeg_dimensions`, on the bytes from its index on. -/
def jpegScan (rest : Bytes) : Option (Nat × Nat) :=
  if rest.length ≤ 9 then none
  else if rest.head? ≠ some 0xff then jpegScan (rest.drop 1)
  else
    match _hd : rest.dropWhile (fun b => b = 0xff) with
    | [] => none
    | marker :: segment =>
      if marker = 0xd9 ∨ marker = 0xda then none
      else
        match segment with
        | high :: low :: body =>
          let length := be16 high low
          if length < 2 ∨ (high :: low :: body).length < length then none
          else if isSof marker ∧ 7 ≤ length then
            match body with
            | _ :: h1 :: h0 :: w1 :: w0 :: _ =>
              if be16 w1 w0 = 0 ∨ be16 h1 h0 = 0 then none else some (be16 w1 w0, be16 h1 h0)
            | _ => none
          else jpegScan ((high :: low :: body).drop length)
        | _ => none
termination_by rest.length
decreasing_by
  · simp only [List.length_drop]
    omega
  · have hle := (List.dropWhile_suffix (fun b : UInt8 => decide (b = 0xff)) (l := rest)).length_le
    rw [_hd] at hle
    simp only [List.length_drop, List.length_cons] at hle ⊢
    omega

def jpegDimensions (bytes : Bytes) : Option (Nat × Nat) := jpegScan (bytes.drop 2)

/-- The media type of an image, with its width and height. -/
def dimensions (bytes : Bytes) : Option (String × UInt32 × UInt32) :=
  match pngSignature.isPrefixOf bytes, bytes.drop 16 with
  | true, w3 :: w2 :: w1 :: w0 :: h3 :: h2 :: h1 :: h0 :: _ =>
    let width := be32 w3 w2 w1 w0
    let height := be32 h3 h2 h1 h0
    if width = 0 ∨ height = 0 then none
    else some ("image/png", UInt32.ofNat width, UInt32.ofNat height)
  | _, _ =>
    if [0xff, 0xd8].isPrefixOf bytes then
      (jpegDimensions bytes).map fun d => ("image/jpeg", UInt32.ofNat d.1, UInt32.ofNat d.2)
    else none

/-! ## Collection -/

structure FileMetadata where
  identity : UInt64 × UInt64
  len : Nat

/-- One candidate: its metadata when it is looked at, its content when it is read, and the id it
is given. -/
structure ArtifactFile where
  metadata : Except ArtifactError FileMetadata
  content : Except ArtifactError Bytes
  opaqueId : OpaqueId

def readBounded (file : ArtifactFile) (maximum : Nat) : Except ArtifactError Bytes :=
  match file.content with
  | .error e => .error e
  | .ok bytes => if maximum < bytes.length then .error .sizeLimit else .ok bytes

/-- The bytes of one candidate, once it is accepted. -/
def acceptArtifact (limits : ArtifactLimits) (file : ArtifactFile)
    (identities : List (UInt64 × UInt64)) :
    Except ArtifactError ((UInt64 × UInt64) × Bytes × ArtifactDescriptor) :=
  match file.metadata with
  | .error e => .error e
  | .ok metadata =>
    if metadata.identity ∈ identities then .error .hardLink
    else if limits.maxBytes < metadata.len then .error .sizeLimit
    else
      match readBounded file limits.maxBytes with
      | .error e => .error e
      | .ok bytes =>
        match dimensions bytes with
        | none => .error .unsupportedMedia
        | some (mediaType, width, height) =>
          if limits.maxPixels < satMul width.toUInt64 height.toUInt64 then .error .pixelLimit
          else
            .ok (metadata.identity, bytes,
              { artifactId := file.opaqueId.text
                mediaType := mediaType
                sizeBytes := UInt64.ofNat bytes.length
                width := width
                height := height
                contentB64 := encodeB64url bytes })

/-- The loop of `collect_artifacts`. -/
def collectLoop (limits : ArtifactLimits) (result : List ArtifactDescriptor) (total : Nat)
    (identities : List (UInt64 × UInt64)) :
    List ArtifactFile → Except ArtifactError (List ArtifactDescriptor)
  | [] => .ok result
  | file :: files =>
    if limits.maxCount ≤ result.length then .error .countLimit
    else
      match acceptArtifact limits file identities with
      | .error e => .error e
      | .ok (identity, bytes, descriptor) =>
        if limits.maxTotalBytes < total + bytes.length then .error .totalLimit
        else
          collectLoop limits (result ++ [descriptor]) (total + bytes.length)
            (identities ++ [identity]) files

/-- Collect PNG/JPEG files under a private request directory. `root` is what its checks and its
walk come to. -/
def collectArtifacts (limits : ArtifactLimits) (root : Except ArtifactError (List ArtifactFile)) :
    Except ArtifactError (List ArtifactDescriptor) :=
  if limits.maxBytes = 0 ∨ MAX_ARTIFACT_BYTES < limits.maxBytes ∨ limits.maxPixels = 0 ∨
      MAX_ARTIFACT_PIXELS < limits.maxPixels ∨ limits.maxCount = 0 ∨ limits.maxTotalBytes = 0 ∨
      MAX_ARTIFACT_BYTES < limits.maxTotalBytes then
    .error .invalidRoot
  else
    match root with
    | .error e => .error e
    | .ok files => collectLoop limits [] 0 [] files

/-- At most `maxCount` files, whose contents are the encodings of at most `maxTotalBytes`. -/
structure Collected (limits : ArtifactLimits) (artifacts : List ArtifactDescriptor) : Prop where
  count : artifacts.length ≤ limits.maxCount
  bytes : ∃ raws : List Bytes, artifacts.map ArtifactDescriptor.contentB64 =
    raws.map encodeB64url ∧ (raws.map List.length).sum ≤ limits.maxTotalBytes

/-! ## Descriptors -/

/-- The descriptor of an image within the limits. -/
structure Describes (limits : ArtifactLimits) (d : ArtifactDescriptor) (bytes : Bytes) : Prop where
  artifactId : ∃ id : OpaqueId, d.artifactId = id.text
  content : d.contentB64 = encodeB64url bytes
  size : d.sizeBytes = UInt64.ofNat bytes.length
  bounded : bytes.length ≤ limits.maxBytes
  image : dimensions bytes = some (d.mediaType, d.width, d.height)
  pixels : satMul d.width.toUInt64 d.height.toUInt64 ≤ limits.maxPixels

theorem acceptArtifact_describes {limits : ArtifactLimits} {file : ArtifactFile}
    {identities : List (UInt64 × UInt64)} {identity : UInt64 × UInt64} {bytes : Bytes}
    {descriptor : ArtifactDescriptor}
    (h : acceptArtifact limits file identities = .ok (identity, bytes, descriptor)) :
    Describes limits descriptor bytes := by
  unfold acceptArtifact at h
  split at h
  · cases h
  split at h
  · cases h
  split at h
  · cases h
  split at h
  · cases h
  rename_i bytes' hread
  split at h
  · cases h
  rename_i mediaType width height hd
  split at h
  · cases h
  rename_i hp
  cases h
  refine ⟨⟨_, rfl⟩, rfl, rfl, ?_, hd, UInt64.not_lt.mp hp⟩
  rw [readBounded] at hread
  split at hread
  · cases hread
  split at hread
  · cases hread
  · rename_i hle
    cases hread
    exact Nat.not_lt.mp hle

/-- What the loop has collected. -/
structure CollectedFrom (limits : ArtifactLimits) (artifacts : List ArtifactDescriptor)
    (raws : List Bytes) : Prop where
  count : artifacts.length ≤ limits.maxCount
  describes : List.Forall₂ (Describes limits) artifacts raws
  total : (raws.map List.length).sum ≤ limits.maxTotalBytes

theorem CollectedFrom.contents {limits : ArtifactLimits} {artifacts : List ArtifactDescriptor}
    {raws : List Bytes} (h : CollectedFrom limits artifacts raws) :
    artifacts.map ArtifactDescriptor.contentB64 = raws.map encodeB64url := by
  have hd := h.describes
  clear h
  induction hd with
  | nil => rfl
  | cons h _ ih => rw [List.map_cons, List.map_cons, h.content, ih]

theorem collectLoop_ok {limits : ArtifactLimits} {files : List ArtifactFile} :
    ∀ (raws : List Bytes) {result : List ArtifactDescriptor}
      {identities : List (UInt64 × UInt64)} {artifacts : List ArtifactDescriptor},
      CollectedFrom limits result raws →
      collectLoop limits result (raws.map List.length).sum identities files = .ok artifacts →
      ∃ raws', CollectedFrom limits artifacts raws' := by
  induction files with
  | nil =>
    intro raws result identities artifacts hc h
    cases h
    exact ⟨raws, hc⟩
  | cons file files ih =>
    intro raws result identities artifacts hc h
    rw [collectLoop] at h
    split at h
    · cases h
    rename_i hcount
    split at h
    · cases h
    rename_i identity bytes descriptor ha
    split at h
    · cases h
    rename_i htotal
    have hsum : ((raws ++ [bytes]).map List.length).sum =
        (raws.map List.length).sum + bytes.length := by
      simp
    refine ih (raws ++ [bytes]) ⟨?_, ?_, ?_⟩ (hsum ▸ h)
    · rw [List.length_append, List.length_singleton]
      omega
    · exact List.rel_append hc.describes (.cons (acceptArtifact_describes ha) .nil)
    · rw [hsum]
      exact Nat.not_lt.mp htotal

/-- Every descriptor is that of an image within the limits. -/
theorem collectArtifacts_describes {limits : ArtifactLimits}
    {root : Except ArtifactError (List ArtifactFile)} {artifacts : List ArtifactDescriptor}
    (h : collectArtifacts limits root = .ok artifacts) :
    ∃ raws, CollectedFrom limits artifacts raws := by
  unfold collectArtifacts at h
  split at h
  · cases h
  split at h
  · cases h
  · exact collectLoop_ok [] ⟨Nat.zero_le _, .nil, Nat.zero_le _⟩ h

/-- What is collected is within the limits. -/
theorem collectArtifacts_ok {limits : ArtifactLimits}
    {root : Except ArtifactError (List ArtifactFile)} {artifacts : List ArtifactDescriptor}
    (h : collectArtifacts limits root = .ok artifacts) : Collected limits artifacts := by
  obtain ⟨raws, hc⟩ := collectArtifacts_describes h
  exact ⟨hc.count, raws, hc.contents, hc.total⟩

/-! ## Images -/

theorem be16_lt (h l : UInt8) : be16 h l < 2 ^ 16 := by
  have hh := h.toNat_lt
  have hl := l.toNat_lt
  unfold be16
  omega

theorem be32_lt (a b c d : UInt8) : be32 a b c d < 2 ^ 32 := by
  have hh := be16_lt a b
  have hl := be16_lt c d
  unfold be32
  omega

theorem jpegScan_bounds {rest : Bytes} {d : Nat × Nat} (h : jpegScan rest = some d) :
    (d.1 ≠ 0 ∧ d.1 < 2 ^ 16) ∧ d.2 ≠ 0 ∧ d.2 < 2 ^ 16 := by
  fun_induction jpegScan rest with
  | case2 rest _ _ ih => exact ih h
  | case7 =>
    rename_i hne _ _ _
    cases h
    simp only [not_or] at hne
    exact ⟨⟨hne.1, be16_lt _ _⟩, hne.2, be16_lt _ _⟩
  | case9 =>
    rename_i ih
    exact ih h
  | _ => cases h

theorem ofNat_ne_zero {n : Nat} (h0 : n ≠ 0) (h : n < 2 ^ 32) : UInt32.ofNat n ≠ 0 := by
  intro he
  have := congrArg UInt32.toNat he
  rw [UInt32.toNat_ofNat_of_lt' h] at this
  exact h0 this

/-- An image is a PNG or a JPEG, and has a width and a height. -/
theorem dimensions_some {bytes : Bytes} {mediaType : String} {width height : UInt32}
    (h : dimensions bytes = some (mediaType, width, height)) :
    (mediaType = "image/png" ∨ mediaType = "image/jpeg") ∧ width ≠ 0 ∧ height ≠ 0 := by
  rw [dimensions.eq_def] at h
  split at h
  · dsimp only at h
    split at h
    · cases h
    · rename_i hne
      cases h
      simp only [not_or] at hne
      exact ⟨.inl rfl, ofNat_ne_zero hne.1 (be32_lt _ _ _ _), ofNat_ne_zero hne.2 (be32_lt _ _ _ _)⟩
  · split at h
    · obtain ⟨d, hd, he⟩ := Option.map_eq_some_iff.mp h
      cases he
      obtain ⟨⟨h1, h2⟩, h3, h4⟩ := jpegScan_bounds hd
      exact ⟨.inr rfl, ofNat_ne_zero h1 (h2.trans (by decide)),
        ofNat_ne_zero h3 (h4.trans (by decide))⟩
    · cases h

end Protocol
end EgoBridge
