import EgoBridge.Bridge.Remote
import EgoBridge.Protocol.Artifacts

/-!
# Wrapper.Response

The remote wrapper's reading of a response, and which responses reach it.

* `plaintextSize`, `envelopeSize` — the bytes of a response's inner text and of its envelope.
* `decodeResponse_deliverable`    — a sealed response is valid on the wire and decoded to itself
                                    if and only if these sizes fit.
-/

namespace EgoBridge
namespace Wrapper

open Protocol Json Bridge

inductive WrapperError where
  | protocol (message : String)
  | status (status : String)
  deriving DecidableEq

def MAX_FRAME_BYTES : Nat := 16 * 1024 * 1024

structure ExecuteErrorResponse where
  protocol : String
  messageType : String
  status : String
  error : String

def ExecuteErrorResponse.ofJson (v : Json) : Option ExecuteErrorResponse := do
  let ms ← fields ["protocol", "type", "status", "error"] v
  let protocol ← required ms "protocol" asString
  let messageType ← required ms "type" asString
  let status ← required ms "status" asString
  let error ← required ms "error" asString
  some { protocol, messageType, status, error }

/-- What a frame that is no envelope is taken for. -/
def brokerError (frame : Bytes) (error : ParseError) : WrapperError :=
  match parseStrictJson ExecuteErrorResponse.ofJson frame with
  | .error _ => .protocol error.message
  | .ok response =>
    if response.protocol = PROTOCOL_VERSION ∧ response.messageType = "execute_result" ∧
        response.status = "error" ∧
        response.error ∈ ["bridge_unavailable", "lease_renewal_required", "lease_expired",
          "binding_revoked", "protocol_error", "concurrency_conflict"] then
      .status response.error
    else .protocol "invalid broker error response"

/-- `map_err` to the error's text. -/
def orWrapper {α : Type} : Except ProtocolError α → Except WrapperError α
  | .error e => .error (.protocol e.message)
  | .ok a => .ok a

section

variable (c : Primitives)

def openResponse (e : OuterEnvelope) (key : Key) : Except WrapperError InnerExecuteResponse := do
  let (ciphertext, nonce, tag) ← orWrapper e.decodedPayload
  let plaintext ← orWrapper (c.openDetached key nonce ciphertext tag (aadForOuter e))
  match parseStrictJson InnerExecuteResponse.ofJson plaintext with
  | .error error => .error (.protocol error.message)
  | .ok response => .ok response

def checkResponse (e : OuterEnvelope) (response : InnerExecuteResponse) :
    Except WrapperError InnerExecuteResponse :=
  if response.protocol ≠ INNER_PROTOCOL_VERSION ∨ response.messageType ≠ .executeResult then
    .error (.protocol "invalid inner response")
  else if response.requestId ≠ e.requestId ∨ response.sequence ≠ e.sequence then
    .error (.protocol "response identity mismatch")
  else if MAX_STDOUT_BYTES < (utf8 response.stdout).length ∨
      MAX_STDERR_BYTES < (utf8 response.stderr).length then
    .error (.protocol "response output exceeds limit")
  else .ok response

/-- `decode_response` of a frame that is an envelope. -/
def decodeEnvelope (e : OuterEnvelope) (key : Key) (permit : RequestPermit) :
    Except WrapperError InnerExecuteResponse := do
  orWrapper (e.validate MAX_FRAME_BYTES)
  if e.messageType ≠ .executeResult ∨ e.direction ≠ .response then
    .error (.protocol "invalid response envelope")
  else if e.bindingId ≠ permit.bindingId ∨ e.generation ≠ permit.generation ∨
      e.requestId ≠ permit.requestId ∨ e.sequence ≠ permit.sequence ∨
      permit.maxPayloadBytes < e.payloadBytes then
    .error (.protocol "response envelope identity mismatch")
  else do
    let response ← openResponse c e key
    checkResponse e response

def decodeResponse (frame : Bytes) (key : Key) (permit : RequestPermit) :
    Except WrapperError InnerExecuteResponse :=
  match parseStrictJson OuterEnvelope.ofJson frame with
  | .error error => .error (brokerError frame error)
  | .ok e => decodeEnvelope c e key permit

end

/-! ## Sizes -/

/-- The bytes of an artifact inside a response. -/
def artifactSize (a : ArtifactDescriptor) : Nat :=
  84 + escapedSize a.artifactId + escapedSize a.mediaType + decimalSize a.sizeBytes.toNat +
    decimalSize a.width.toNat + decimalSize a.height.toNat + escapedSize a.contentB64

def exitCodeSize : Option Int32 → Nat
  | none => 4
  | some code => integerSize code.toInt

/-- The bytes of a response before it is sealed. -/
def plaintextSize (r : InnerExecuteResponse) : Nat :=
  130 + escapedSize r.protocol + escapedSize r.messageType.name + escapedSize r.requestId +
    decimalSize r.sequence.toNat + escapedSize r.status.name + exitCodeSize r.exitCode +
    escapedSize r.stdout + escapedSize r.stderr +
    max 2 (1 + (r.artifacts.map fun a => 1 + artifactSize a).sum) + decimalSize r.durationMs.toNat

/-- The bytes of the envelope of a response with `n` bytes of inner text. -/
def envelopeSize (request : OuterEnvelope) (n : Nat) : Nat :=
  317 + escapedSize request.requestId + escapedSize request.bindingId +
    decimalSize request.generation.toNat + decimalSize request.sequence.toNat + decimalSize n +
    (4 * n + 2) / 3

theorem artifactSize_eq (a : ArtifactDescriptor) : size a.toJson = artifactSize a := by
  rw [ArtifactDescriptor.toJson, size_obj]
  simp only [membersSize, ArtifactDescriptor.members, List.map_cons, List.map_nil, List.sum_cons,
    List.sum_nil, size_str, size_ofU64, size_ofU32, artifactSize,
    show escapedSize "artifact_id" = 11 from rfl, show escapedSize "media_type" = 10 from rfl,
    show escapedSize "size_bytes" = 10 from rfl, show escapedSize "width" = 5 from rfl,
    show escapedSize "height" = 6 from rfl, show escapedSize "content_b64" = 11 from rfl]
  omega

theorem exitCodeSize_eq (code : Option Int32) : size (ofOption ofI32 code) = exitCodeSize code := by
  cases code with
  | none => rfl
  | some code => exact size_ofI32 code

theorem plaintextSize_eq (r : InnerExecuteResponse) :
    (canonicalJson r.toJson).length = plaintextSize r := by
  have ha : (r.artifacts.map ArtifactDescriptor.toJson).map (fun v => 1 + size v) =
      r.artifacts.map fun a => 1 + artifactSize a := by
    rw [List.map_map]
    exact List.map_congr_left fun a _ => congrArg (1 + ·) (artifactSize_eq a)
  rw [canonicalJson_length, InnerExecuteResponse.toJson, size_obj]
  simp only [membersSize, InnerExecuteResponse.members, List.map_cons, List.map_nil, List.sum_cons,
    List.sum_nil, size_str, size_ofU64, size_arr, elemsSize, ha, exitCodeSize_eq, plaintextSize,
    show escapedSize "protocol" = 8 from rfl, show escapedSize "type" = 4 from rfl,
    show escapedSize "request_id" = 10 from rfl, show escapedSize "sequence" = 8 from rfl,
    show escapedSize "status" = 6 from rfl, show escapedSize "exit_code" = 9 from rfl,
    show escapedSize "stdout" = 6 from rfl, show escapedSize "stderr" = 6 from rfl,
    show escapedSize "artifacts" = 9 from rfl, show escapedSize "duration_ms" = 11 from rfl]
  omega

theorem sealedEnvelope_wireSize {request : OuterEnvelope} {n : Nat} {nonce : Nonce} {text : Bytes}
    (ht : text.length = n + 16) :
    (sealedEnvelope request n nonce text).wireSize = envelopeSize request n := by
  have hnonce := nonce.length_eq
  have hc : (text.take n).length = n := by rw [List.length_take]; omega
  have htag : (text.drop n).length = 16 := by rw [List.length_drop]; omega
  rw [OuterEnvelope.wireSize_eq]
  simp only [sealedEnvelope, responseEnvelope, envelopeSize, encodeB64url_size, hnonce, hc, htag,
    show escapedSize PROTOCOL_VERSION = 21 from rfl,
    show escapedSize "ego_browser_bridge" = 18 from rfl,
    show escapedSize "ego_browser" = 11 from rfl,
    show escapedSize OuterMessageType.executeResult.name = 14 from rfl,
    show escapedSize Direction.response.name = 8 from rfl, show escapedSize "" = 0 from rfl]
  omega

/-! ## Delivery -/

/-- A response to this request. -/
structure Answers (r : InnerExecuteResponse) (request : OuterEnvelope) : Prop where
  protocol : r.protocol = INNER_PROTOCOL_VERSION
  messageType : r.messageType = .executeResult
  requestId : r.requestId = request.requestId
  sequence : r.sequence = request.sequence

/-- A permit for this request. -/
structure Permits (permit : RequestPermit) (request : OuterEnvelope) : Prop where
  bindingId : request.bindingId = permit.bindingId
  generation : request.generation = permit.generation
  requestId : request.requestId = permit.requestId
  sequence : request.sequence = permit.sequence

/-- The limits the bridge runs a process with. -/
structure WithinLimits (r : InnerExecuteResponse) : Prop where
  stdout : (utf8 r.stdout).length ≤ MAX_STDOUT_BYTES
  stderr : (utf8 r.stderr).length ≤ MAX_STDERR_BYTES
  artifacts : Collected .default r.artifacts

/-- The sealed response is valid on the wire, and the wrapper decodes it to itself. -/
def Deliverable (c : Primitives) (r : InnerExecuteResponse) (request : OuterEnvelope) (key : Key)
    (nonce : Nonce) (permit : RequestPermit) : Prop :=
  ∃ e, sealResponse c r request key nonce = .ok e ∧ e.validate MAX_FRAME_BYTES = .ok () ∧
    decodeResponse c (canonicalJson e.toJson) key permit = .ok r

/-- The response's text and its envelope fit the permit and the frame. -/
def Fits (r : InnerExecuteResponse) (request : OuterEnvelope) (permit : RequestPermit) : Prop :=
  plaintextSize r ≤ permit.maxPayloadBytes ∧
    envelopeSize request (plaintextSize r) ≤ MAX_FRAME_BYTES

theorem plaintextSize_le_envelopeSize (request : OuterEnvelope) (n : Nat) :
    n ≤ envelopeSize request n := by
  unfold envelopeSize
  omega

section

variable {request : OuterEnvelope} (hr : request.Valid MAX_FRAME_BYTES) {n : Nat} {nonce : Nonce}
  {text : Bytes}

include hr

/-- An answer to a valid request is valid if its frame fits. -/
theorem sealedEnvelope_valid (h0 : n ≠ 0) (ht : text.length = n + 16)
    (hn : envelopeSize request n ≤ MAX_FRAME_BYTES) :
    (sealedEnvelope request n nonce text).Valid MAX_FRAME_BYTES where
  protocol := rfl
  channel := rfl
  relayBindingKind := rfl
  typed := .inr ⟨rfl, rfl⟩
  requestId := hr.requestId
  bindingId := hr.bindingId
  generation := hr.generation
  sequence := hr.sequence
  payloadBytes := Nat.le_trans (plaintextSize_le_envelopeSize request n) hn
  payload := by
    have hc : (text.take n).length = n := by rw [List.length_take]; omega
    refine ⟨text.take n, nonce.bytes, text.drop n,
      ⟨decodeB64_encodeB64url _, decodeB64_encodeB64url _, decodeB64_encodeB64url _⟩,
      nonce.length_eq, by rw [List.length_drop]; omega, hc, fun he => ?_⟩
    rw [he] at hc
    exact h0 hc.symm
  keyWrap := .inl rfl
  wireSize := by rw [sealedEnvelope_wireSize ht]; exact hn

end

theorem openResponse_sealed {c : Primitives} (hc : c.Lawful) {r : InnerExecuteResponse}
    {request : OuterEnvelope} {key : Key} {nonce : Nonce} {n : Nat} {text : Bytes}
    (hn : (canonicalJson r.toJson).length = n)
    (ht : c.encrypt key nonce.bytes (aadForOuter (responseEnvelope request n))
      (canonicalJson r.toJson) = some text) :
    openResponse c (sealedEnvelope request n nonce text) key = .ok r := by
  have hl : text.length = n + 16 := by rw [hc.length ht, hn]
  have hp : (sealedEnvelope request n nonce text).Carries (text.take n) nonce.bytes
      (text.drop n) :=
    ⟨decodeB64_encodeB64url _, decodeB64_encodeB64url _, decodeB64_encodeB64url _⟩
  have ho : c.openDetached key nonce.bytes (text.take n) (text.drop n)
      (aadForOuter (sealedEnvelope request n nonce text)) = .ok (canonicalJson r.toJson) := by
    have haad : aadForOuter (sealedEnvelope request n nonce text) =
      aadForOuter (responseEnvelope request n) := rfl
    have htag : (text.drop n).length = 16 := by rw [List.length_drop]; omega
    rw [Primitives.openDetached, if_neg (by simp [nonce.length_eq, htag]), haad,
      List.take_append_drop, hc.opens ht]
  have hparse : parseStrictJson InnerExecuteResponse.ofJson (canonicalJson r.toJson) = .ok r :=
    r.codec.parse (by decide)
  rw [openResponse, hp.decodedPayload, orWrapper, ok_bind]
  dsimp only
  rw [ho, orWrapper, ok_bind, hparse]

theorem Deliverable.fits {c : Primitives} (hc : c.Lawful) {r : InnerExecuteResponse}
    {request : OuterEnvelope} {permit : RequestPermit} {key : Key} {nonce : Nonce}
    (h : Deliverable c r request key nonce permit) : Fits r request permit := by
  obtain ⟨e, he, hv, hd⟩ := h
  have hn := plaintextSize_eq r
  obtain ⟨text, ht, rfl⟩ := (sealResponse_ok hc hn).mp he
  have hl : text.length = plaintextSize r + 16 := by rw [hc.length ht, hn]
  have hv := OuterEnvelope.validate_ok.mp hv
  have hw := hv.wireSize
  rw [sealedEnvelope_wireSize hl] at hw
  refine ⟨?_, hw⟩
  have hb : plaintextSize r < 2 ^ 64 :=
    Nat.lt_of_le_of_lt (Nat.le_trans (plaintextSize_le_envelopeSize request _) hw) (by decide)
  rw [decodeResponse, OuterEnvelope.codec _ hb |>.parse (by decide)] at hd
  obtain ⟨_, _, hd⟩ := bind_ok hd
  rw [if_neg (by simp [sealedEnvelope, responseEnvelope])] at hd
  split at hd
  · cases hd
  · rename_i hid
    simp only [not_or] at hid
    exact Nat.not_lt.mp hid.2.2.2.2

theorem Fits.deliverable {c : Primitives} (hc : c.Lawful) {r : InnerExecuteResponse}
    {request : OuterEnvelope} (hr : request.Valid MAX_FRAME_BYTES) (ha : Answers r request)
    (hlim : WithinLimits r) {permit : RequestPermit} (hp : Permits permit request) (key : Key)
    (nonce : Nonce) (h : Fits r request permit) : Deliverable c r request key nonce permit := by
  obtain ⟨hpay, hw⟩ := h
  have hn := plaintextSize_eq r
  have h0 : plaintextSize r ≠ 0 := by unfold plaintextSize; omega
  have hle : plaintextSize r ≤ MAX_FRAME_BYTES :=
    Nat.le_trans (plaintextSize_le_envelopeSize request _) hw
  have hb : plaintextSize r < 2 ^ 64 := Nat.lt_of_le_of_lt hle (by decide)
  obtain ⟨text, ht⟩ := hc.total key nonce.bytes
    (aadForOuter (responseEnvelope request (plaintextSize r))) (canonicalJson r.toJson)
    (by rw [hn]; exact Nat.le_trans hle (by decide))
  have hl : text.length = plaintextSize r + 16 := by rw [hc.length ht, hn]
  have hv : (sealedEnvelope request (plaintextSize r) nonce text).validate MAX_FRAME_BYTES = .ok () :=
    OuterEnvelope.validate_ok.mpr (sealedEnvelope_valid hr h0 hl hw)
  refine ⟨_, (sealResponse_ok hc hn).mpr ⟨text, ht, rfl⟩, hv, ?_⟩
  rw [decodeResponse, (OuterEnvelope.codec _ hb).parse (by decide)]
  dsimp only
  rw [decodeEnvelope, hv, orWrapper, ok_bind,
    if_neg (by simp [sealedEnvelope, responseEnvelope]), if_neg]
  · rw [openResponse_sealed hc hn ht, ok_bind]
    have hout : ¬ (MAX_STDOUT_BYTES < (utf8 r.stdout).length ∨
        MAX_STDERR_BYTES < (utf8 r.stderr).length) := by
      have h1 := hlim.stdout
      have h2 := hlim.stderr
      omega
    rw [checkResponse, if_neg (by simp [ha.protocol, ha.messageType]),
      if_neg (by simp [ha.requestId, ha.sequence, sealedEnvelope, responseEnvelope]),
      if_neg hout]
  · simp [sealedEnvelope, responseEnvelope, hp.bindingId, hp.generation, hp.requestId,
      hp.sequence, hpay]

/-- **Delivery.** Of the responses within the limits of a run, exactly those that fit are valid
on the wire and decoded to themselves. -/
theorem decodeResponse_deliverable {c : Primitives} (hc : c.Lawful) {r : InnerExecuteResponse}
    {request : OuterEnvelope} (hr : request.Valid MAX_FRAME_BYTES) (ha : Answers r request)
    (hlim : WithinLimits r) {permit : RequestPermit} (hp : Permits permit request) (key : Key)
    (nonce : Nonce) :
    Deliverable c r request key nonce permit ↔ Fits r request permit :=
  ⟨fun h => h.fits hc, fun h => h.deliverable hc hr ha hlim hp key nonce⟩

/-! ## A small artifact and a full one -/

def zeroNonce : Nonce := ⟨List.replicate 12 0, zeroNonce_length⟩

/-- A request with one byte of ciphertext. -/
def localRequest : OuterEnvelope where
  protocol := PROTOCOL_VERSION
  channel := "ego_browser_bridge"
  relayBindingKind := "ego_browser"
  messageType := .execute
  requestId := "r1"
  bindingId := "b1"
  generation := 1
  sequence := 1
  direction := .request
  payloadBytes := 1
  nonce := "AAAAAAAAAAAAAAAA"
  ciphertext := "AA"
  authTag := "AAAAAAAAAAAAAAAAAAAAAA"
  keyWrap := ""

def localPermit : RequestPermit where
  bindingId := "b1"
  generation := 1
  requestId := "r1"
  sequence := 1
  expiresAtUnixMs := 1
  maxPayloadBytes := 16 * 1024 * 1024
  maxScriptBytes := MAX_SCRIPT_BYTES
  defaultTaskSpace := "agent-remote:development"
  allowlistRevision := 1
  learningBundleDigest := none
  concurrencyMode := .binding
  taskSpaceScope := none
  tabScope := none

theorem localRequest_valid : localRequest.Valid MAX_FRAME_BYTES :=
  OuterEnvelope.validate_ok.mp (by decide +kernel)

/-- The head of a PNG of one pixel. -/
def onePixel : Bytes :=
  pngSignature ++ [0, 0, 0, 0x0d, 0x49, 0x48, 0x44, 0x52, 0, 0, 0, 1, 0, 0, 0, 1]

theorem dimensions_onePixel (rest : Bytes) :
    dimensions (onePixel ++ rest) = some ("image/png", 1, 1) := by
  have hp : pngSignature.isPrefixOf (onePixel ++ rest) = true := rfl
  have hd : (onePixel ++ rest).drop 16 = 0 :: 0 :: 0 :: 1 :: 0 :: 0 :: 0 :: 1 :: rest := rfl
  rw [dimensions, hp, hd]
  dsimp only
  rw [if_neg (by decide)]
  rfl

def fullId : OpaqueId := ⟨"0123456789abcdef0123456789abcdef", by decide, by decide⟩

/-- An image that is read as it was listed is collected. -/
theorem image_collected {image : Bytes} {n : Nat} (hlen : image.length = n)
    (hdim : dimensions image = some ("image/png", 1, 1)) (hn : n ≤ MAX_ARTIFACT_BYTES) :
    collectArtifacts .default (.ok [⟨.ok ⟨(1, 1), n⟩, .ok image, fullId⟩]) =
      .ok [⟨fullId.text, "image/png", UInt64.ofNat n, 1, 1, encodeB64url image⟩] := by
  have hread : readBounded ⟨.ok ⟨(1, 1), n⟩, .ok image, fullId⟩ ArtifactLimits.default.maxBytes =
      .ok image :=
    if_neg (by rw [hlen]; exact Nat.not_lt.mpr hn)
  have haccept : acceptArtifact .default ⟨.ok ⟨(1, 1), n⟩, .ok image, fullId⟩ [] =
      .ok ((1, 1), image,
        ⟨fullId.text, "image/png", UInt64.ofNat n, 1, 1, encodeB64url image⟩) := by
    simp only [acceptArtifact, hread, hdim, hlen]
    have hsize : ¬ ArtifactLimits.default.maxBytes < n := Nat.not_lt.mpr hn
    rw [if_neg List.not_mem_nil, if_neg hsize, if_neg (by decide)]
  rw [collectArtifacts, if_neg (by decide)]
  rw [collectLoop, if_neg (by decide), haccept]
  dsimp only
  rw [if_neg (by rw [hlen, Nat.zero_add]; exact Nat.not_lt.mpr hn)]
  rfl

/-- The image alone, among output on both streams. -/
def pixelResponse : InnerExecuteResponse :=
  processResponse
    ⟨.completed, some 0,
      [⟨fullId.text, "image/png", UInt64.ofNat 24, 1, 1, encodeB64url onePixel⟩]⟩
    "saved \"pixel.png\"\n" "one warning\n" 7 localRequest

theorem pixelResponse_deliverable :
    Deliverable plainCipher pixelResponse localRequest plainKey zeroNonce localPermit := by
  have hcollected := image_collected (n := 24) rfl (dimensions_onePixel []) (by decide)
  have hlim : WithinLimits pixelResponse :=
    ⟨by decide, by decide, collectArtifacts_ok hcollected⟩
  exact (decodeResponse_deliverable plainCipher_lawful localRequest_valid ⟨rfl, rfl, rfl, rfl⟩ hlim
    ⟨rfl, rfl, rfl, rfl⟩ plainKey zeroNonce).mpr ⟨by decide, by decide⟩

/-- Such a PNG, filled up to the limit. -/
def fullImage : Bytes := onePixel ++ List.replicate (MAX_ARTIFACT_BYTES - 24) 0

theorem fullImage_length : fullImage.length = MAX_ARTIFACT_BYTES := by
  rw [fullImage, List.length_append, List.length_replicate]
  decide

def fullArtifact : ArtifactDescriptor where
  artifactId := fullId.text
  mediaType := "image/png"
  sizeBytes := UInt64.ofNat MAX_ARTIFACT_BYTES
  width := 1
  height := 1
  contentB64 := encodeB64url fullImage

theorem fullImage_collected :
    collectArtifacts .default (.ok [⟨.ok ⟨(1, 1), MAX_ARTIFACT_BYTES⟩, .ok fullImage, fullId⟩]) =
      .ok [fullArtifact] :=
  image_collected fullImage_length (dimensions_onePixel _) (Nat.le_refl _)

def fullResponse : InnerExecuteResponse :=
  processResponse ⟨.completed, some 0, [fullArtifact]⟩ "" "" 0 localRequest

theorem fullResponse_size : plaintextSize fullResponse = 16777538 := by
  have hc : escapedSize fullArtifact.contentB64 = 16777216 := by
    rw [show fullArtifact.contentB64 = encodeB64url fullImage from rfl, encodeB64url_size,
      fullImage_length]
    rfl
  have ha : artifactSize fullArtifact = 84 + 32 + 9 + 8 + 1 + 1 + 16777216 := by
    rw [artifactSize, hc]
    rfl
  rw [plaintextSize, show fullResponse.artifacts = [fullArtifact] from rfl, List.map_singleton, ha]
  rfl

/-- One artifact of twelve mebibytes, within every limit of the bridge: the sealed response is
too large for the wrapper. -/
theorem full_artifact_undeliverable :
    collectArtifacts .default (.ok [⟨.ok ⟨(1, 1), MAX_ARTIFACT_BYTES⟩, .ok fullImage, fullId⟩]) =
      .ok fullResponse.artifacts ∧
    Answers fullResponse localRequest ∧ WithinLimits fullResponse ∧
    (∃ e, sealResponse plainCipher fullResponse localRequest plainKey zeroNonce = .ok e ∧
      e.validate MAX_FRAME_BYTES ≠ .ok ()) ∧
    ¬ Deliverable plainCipher fullResponse localRequest plainKey zeroNonce localPermit := by
  have hn := plaintextSize_eq fullResponse
  have hbig : ¬ envelopeSize localRequest (plaintextSize fullResponse) ≤ MAX_FRAME_BYTES := by
    have hle := plaintextSize_le_envelopeSize localRequest (plaintextSize fullResponse)
    rw [fullResponse_size] at hle ⊢
    intro h
    exact absurd (Nat.le_trans hle h) (by decide)
  refine ⟨fullImage_collected, ⟨rfl, rfl, rfl, rfl⟩,
    ⟨by decide, by decide, collectArtifacts_ok fullImage_collected⟩, ?_,
    fun h => hbig (h.fits plainCipher_lawful).2⟩
  obtain ⟨text, ht⟩ := plainCipher_lawful.total plainKey zeroNonce.bytes
    (aadForOuter (responseEnvelope localRequest (plaintextSize fullResponse)))
    (canonicalJson fullResponse.toJson) (by rw [hn, fullResponse_size]; decide)
  refine ⟨_, (sealResponse_ok plainCipher_lawful hn).mpr ⟨text, ht, rfl⟩, fun hv => hbig ?_⟩
  have hw := (OuterEnvelope.validate_ok.mp hv).wireSize
  rwa [sealedEnvelope_wireSize (by rw [plainCipher_lawful.length ht, hn])] at hw

end Wrapper
end EgoBridge
