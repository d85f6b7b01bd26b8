import EgoBridge.Json.Order
import EgoBridge.Protocol.Crypto

/-!
# Protocol.Transcripts

What a wrapped key and a signed proof are bound to.

* `key_wrap_unambiguous`       — the transcript of a key wrap is that of one request, and the key
  unwraps for this request alone.
* `deviceProofMessage`         — the message a device signs for a request.
* `deviceProofMessage_eq_iff`  — two accepted requests have one message where they are one request.
-/

namespace EgoBridge
namespace Protocol

open Json

/-! ## Key wraps -/

/-- The request a session key is wrapped for. -/
structure OuterEnvelope.SameRequest (a b : OuterEnvelope) : Prop where
  bindingId : a.bindingId = b.bindingId
  generation : a.generation = b.generation
  requestId : a.requestId = b.requestId
  sequence : a.sequence = b.sequence

def OuterEnvelope.transcript (e : OuterEnvelope) : Bytes :=
  keyWrapTranscript e.bindingId e.generation e.requestId e.sequence

/-- What an ideal cipher does with one text: it opens under the key, the nonce and the data it was
sealed under, and no others. -/
def Primitives.OpensOnly (c : Primitives) (key : Key) (nonce aad text : Bytes) : Prop :=
  ∀ key' aad' message, c.decrypt key' nonce aad' text = some message → key' = key ∧ aad' = aad

namespace OuterEnvelope

/-- The key a session key is wrapped under. -/
def wrapKey (e : OuterEnvelope) (c : Primitives) (ephemeral recipientPublicKey : Key) : Key :=
  deriveWrapKey c (c.diffieHellman ephemeral recipientPublicKey) e.transcript

/-- `wrap_session_key` for the request of an envelope. -/
def wrap (e : OuterEnvelope) (c : Primitives) (sessionKey recipientPublicKey ephemeral : Key)
    (nonce : Nonce) : Except ProtocolError String :=
  wrapSessionKey c sessionKey recipientPublicKey ephemeral nonce e.bindingId e.generation
    e.requestId e.sequence

def unwrap (e : OuterEnvelope) (c : Primitives) (encoded : String) (recipientSecret : Key) :
    Except ProtocolError Key :=
  unwrapSessionKey c encoded recipientSecret e.bindingId e.generation e.requestId e.sequence

theorem transcript_eq_iff {a b : OuterEnvelope} {m n : Nat} (ha : a.validate m = .ok ())
    (hb : b.validate n = .ok ()) : a.transcript = b.transcript ↔ a.SameRequest b := by
  constructor
  · intro h
    have ha' := zero_notMem_of_validTextId (validate_ok.mp ha).bindingId
    have hb' := zero_notMem_of_validTextId (validate_ok.mp hb).bindingId
    obtain ⟨hbinding, hgeneration, hrequest, hsequence⟩ := keyWrapTranscript_injective ha' hb' h
    exact ⟨hbinding, hgeneration, hrequest, hsequence⟩
  · intro h
    rw [transcript, transcript, h.bindingId, h.generation, h.requestId, h.sequence]

/-- A wrapped key is a public key, a nonce and the text of the seal. -/
theorem wrap_ok {e : OuterEnvelope} {c : Primitives} {sessionKey recipient ephemeral : Key}
    {nonce : Nonce} {encoded : String}
    (h : e.wrap c sessionKey recipient ephemeral nonce = .ok encoded) :
    ∃ text, c.encrypt (e.wrapKey c ephemeral recipient) nonce.bytes e.transcript
        sessionKey.bytes = some text ∧ text.length = 48 ∧
      encoded = encodeB64url ((c.publicKey ephemeral).bytes ++ nonce.bytes ++ text) ∧
      ¬ (c.diffieHellman ephemeral recipient).bytes.all (· = 0) := by
  unfold wrap wrapSessionKey at h
  dsimp only at h
  split at h
  · cases h
  · rename_i hs
    split at h
    · cases h
    · rename_i text ht
      split at h
      · cases h
      · rename_i hl
        cases h
        refine ⟨text, ht, not_not.mp hl, ?_, hs⟩
        rw [List.append_assoc _ (text.take 32), List.take_append_drop]

end OuterEnvelope

/-- The transcript of a key wrap is that of one request, and a session key that is wrapped for a
request unwraps for this request alone, to itself. -/
theorem key_wrap_unambiguous {a b : OuterEnvelope} {m n : Nat} (ha : a.validate m = .ok ())
    (hb : b.validate n = .ok ()) :
    (a.transcript = b.transcript ↔ a.SameRequest b) ∧
      ∀ c : Primitives, c.Lawful →
        (∀ x y, c.diffieHellman x (c.publicKey y) = c.diffieHellman y (c.publicKey x)) →
        ∀ sessionKey secret ephemeral nonce encoded,
          a.wrap c sessionKey (c.publicKey secret) ephemeral nonce = .ok encoded →
          (∀ text, c.encrypt (a.wrapKey c ephemeral (c.publicKey secret)) nonce.bytes a.transcript
              sessionKey.bytes = some text →
            c.OpensOnly (a.wrapKey c ephemeral (c.publicKey secret)) nonce.bytes a.transcript
              text) →
          ∀ k, b.unwrap c encoded secret = .ok k ↔ a.SameRequest b ∧ k = sessionKey := by
  refine ⟨OuterEnvelope.transcript_eq_iff ha hb, ?_⟩
  intro c hc hdh sessionKey secret ephemeral nonce encoded hw hideal k
  have hown : a.unwrap c encoded secret = .ok sessionKey := unwrap_wrapSessionKey hc hdh hw
  constructor
  · intro h
    obtain ⟨text, hseal, hlength, rfl, -⟩ := OuterEnvelope.wrap_ok hw
    have hopen := unwrapSessionKey_tuple_ok hlength h
    obtain ⟨-, haad⟩ := hideal text hseal _ _ _ hopen
    have hsame := (OuterEnvelope.transcript_eq_iff ha hb).mp haad.symm
    refine ⟨hsame, ?_⟩
    rw [OuterEnvelope.unwrap, hsame.bindingId, hsame.generation, hsame.requestId,
      hsame.sequence] at hown
    rw [OuterEnvelope.unwrap, hown] at h
    exact (Except.ok.inj h).symm
  · rintro ⟨hsame, rfl⟩
    rwa [OuterEnvelope.unwrap, hsame.bindingId, hsame.generation, hsame.requestId,
      hsame.sequence] at hown

def wrapRequest (requestId : String) : OuterEnvelope :=
  ⟨PROTOCOL_VERSION, "ego_browser_bridge", "ego_browser", .execute, requestId, "binding", 1, 1,
    .request, 1, "AAAAAAAAAAAAAAAA", "AA", "AAAAAAAAAAAAAAAAAAAAAA", ""⟩

theorem wrapRequest_valid :
    (wrapRequest "first").validate 4096 = .ok () ∧ (wrapRequest "second").validate 4096 = .ok () := by
  decide +kernel

def onesKey : Key := ⟨List.replicate 32 1, ones_length⟩

/-- A cipher that appends a tag of its own for one key and one text of associated data. -/
def taggingCipher (aad : Bytes) : Primitives where
  encrypt := fun key _ aad' message =>
    some (message ++ List.replicate 16 (if key = onesKey ∧ aad' = aad then 1 else 0))
  decrypt := fun key _ aad' text =>
    if text.drop (text.length - 16) =
        List.replicate 16 (if key = onesKey ∧ aad' = aad then 1 else 0) then
      some (text.take (text.length - 16))
    else none
  diffieHellman := fun _ _ => onesKey
  publicKey := id
  sha256 := fun _ => onesKey

theorem taggingCipher_lawful (aad : Bytes) : (taggingCipher aad).Lawful where
  total := fun _ _ _ _ _ => ⟨_, rfl⟩
  length := by
    intro key nonce aad' message text h
    cases h
    simp
  opens := by
    intro key nonce aad' message text h
    cases h
    simp [taggingCipher]

theorem taggingCipher_opensOnly (nonce aad message text : Bytes)
    (h : (taggingCipher aad).encrypt onesKey nonce aad message = some text) :
    (taggingCipher aad).OpensOnly onesKey nonce aad text := by
  cases h
  intro key' aad' message' hopen
  by_contra hne
  simp [taggingCipher, hne] at hopen

theorem key_wrap_sample :
    ∃ encoded, (wrapRequest "first").wrap (taggingCipher (wrapRequest "first").transcript) onesKey
        onesKey onesKey ⟨List.replicate 12 0, rfl⟩ = .ok encoded ∧
      ∀ k, (wrapRequest "second").unwrap (taggingCipher (wrapRequest "first").transcript) encoded
        onesKey ≠ .ok k := by
  obtain ⟨encoded, hw⟩ : ∃ encoded, (wrapRequest "first").wrap
      (taggingCipher (wrapRequest "first").transcript) onesKey onesKey onesKey
      ⟨List.replicate 12 0, rfl⟩ = .ok encoded := ⟨_, rfl⟩
  refine ⟨encoded, hw, fun k hk => ?_⟩
  have h := (key_wrap_unambiguous wrapRequest_valid.1 wrapRequest_valid.2).2
    (taggingCipher (wrapRequest "first").transcript) (taggingCipher_lawful _) (fun _ _ => rfl)
    onesKey onesKey onesKey ⟨List.replicate 12 0, rfl⟩ encoded hw
    (fun text ht => taggingCipher_opensOnly _ _ _ text ht) k
  exact absurd (h.mp hk).1.requestId (by decide)

/-! ## Device proofs -/

/-- Immutable context authenticated by one Device Client PoP signature. -/
structure DeviceProofContext where
  operation : String
  deviceId : String
  deviceGeneration : UInt64
  operationGeneration : UInt64
  bindingId : Option String
  releaseProfile : String
  credentialProfile : String
  serverHost : String

/-- Errors returned while building an unambiguous device PoP transcript. -/
inductive DeviceProofError where
  | invalidContext
  | invalidPayload
  deriving DecidableEq

/-- `u32::to_be_bytes`, of a length. -/
def lengthBytes (n : Nat) : Bytes :=
  [n / 2 ^ 24, n / 2 ^ 16, n / 2 ^ 8, n].map UInt8.ofNat

def appendField (message : Bytes) (value : String) : Except DeviceProofError Bytes :=
  let encoded := utf8 value
  if 2 ^ 32 ≤ encoded.length then .error .invalidContext
  else .ok (message ++ lengthBytes encoded.length ++ encoded)

def DeviceProofContext.invalid (context : DeviceProofContext) : Bool :=
  context.operation.isEmpty || context.deviceId.isEmpty || context.deviceGeneration = 0 ||
    context.operationGeneration = 0 || context.releaseProfile.isEmpty ||
    context.credentialProfile.isEmpty || context.serverHost.isEmpty

def popTag : Bytes := utf8 "agent-remote/ego-browser/pop/v2" ++ [0]

/-- Build the v2 payload-bound Device Client proof transcript. -/
def deviceProofMessage (sha256 : Bytes → Key) (context : DeviceProofContext) (challenge : Bytes)
    (payload : Json) : Except DeviceProofError Bytes :=
  match payload with
  | .obj object =>
    if context.invalid ∨ challenge.length ≠ 32 ∨ (object.lookup "proof_challenge").isSome ∨
        (object.lookup "proof_signature").isSome then
      .error .invalidContext
    else do
      let message ← [context.operation, context.deviceId].foldlM appendField popTag
      let message ← [context.bindingId.getD "", context.releaseProfile, context.credentialProfile,
        context.serverHost].foldlM appendField
          (message ++ toBeBytes context.deviceGeneration ++ toBeBytes context.operationGeneration)
      .ok (message ++ challenge ++ (sha256 (canonicalJson payload)).bytes)
  | _ => .error .invalidPayload

/-- One context, with an absent binding taken for an empty one. -/
structure DeviceProofContext.Same (a b : DeviceProofContext) : Prop where
  operation : a.operation = b.operation
  deviceId : a.deviceId = b.deviceId
  deviceGeneration : a.deviceGeneration = b.deviceGeneration
  operationGeneration : a.operationGeneration = b.operationGeneration
  bindingId : a.bindingId.getD "" = b.bindingId.getD ""
  releaseProfile : a.releaseProfile = b.releaseProfile
  credentialProfile : a.credentialProfile = b.credentialProfile
  serverHost : a.serverHost = b.serverHost

/-- Two texts with one digest. -/
def Collision (sha256 : Bytes → Key) (x y : Bytes) : Prop := x ≠ y ∧ sha256 x = sha256 y

/-- The text of a field. -/
def fieldBytes (value : String) : Bytes := lengthBytes (utf8 value).length ++ utf8 value

theorem lengthBytes_injective {m n : Nat} (hm : m < 2 ^ 32) (hn : n < 2 ^ 32)
    (h : lengthBytes m = lengthBytes n) : m = n := by
  simp only [lengthBytes, List.map_cons, List.map_nil, List.cons.injEq, ← UInt8.toNat_inj,
    UInt8.toNat_ofNat'] at h
  omega

/-- A field ends where its length says. -/
theorem fieldBytes_append_inj {a b : String} {x y : Bytes} (ha : (utf8 a).length < 2 ^ 32)
    (hb : (utf8 b).length < 2 ^ 32) (h : fieldBytes a ++ x = fieldBytes b ++ y) :
    a = b ∧ x = y := by
  rw [fieldBytes, fieldBytes, List.append_assoc, List.append_assoc] at h
  obtain ⟨hl, h⟩ := List.append_inj h rfl
  obtain ⟨hv, h⟩ := List.append_inj h (lengthBytes_injective ha hb hl)
  exact ⟨utf8_injective hv, h⟩

theorem appendField_ok {message : Bytes} {value : String} {out : Bytes}
    (h : appendField message value = .ok out) :
    (utf8 value).length < 2 ^ 32 ∧ out = message ++ fieldBytes value := by
  obtain ⟨hl, h⟩ := ite_error_ok.mp h
  cases h
  exact ⟨Nat.not_le.mp hl, List.append_assoc _ _ _⟩

/-- The message of an accepted request, field by field. -/
theorem deviceProofMessage_ok {sha256 : Bytes → Key} {context : DeviceProofContext}
    {challenge : Bytes} {payload : Json} {message : Bytes}
    (h : deviceProofMessage sha256 context challenge payload = .ok message) :
    challenge.length = 32 ∧
      (∀ value ∈ [context.operation, context.deviceId, context.bindingId.getD "",
        context.releaseProfile, context.credentialProfile, context.serverHost],
        (utf8 value).length < 2 ^ 32) ∧
      message = popTag ++ (fieldBytes context.operation ++ (fieldBytes context.deviceId ++
        (toBeBytes context.deviceGeneration ++ (toBeBytes context.operationGeneration ++
          (fieldBytes (context.bindingId.getD "") ++ (fieldBytes context.releaseProfile ++
            (fieldBytes context.credentialProfile ++ (fieldBytes context.serverHost ++
              (challenge ++ (sha256 (canonicalJson payload)).bytes))))))))) := by
  cases payload with
  | obj object =>
    obtain ⟨hc, h⟩ := ite_error_ok.mp h
    obtain ⟨m1, h1, h⟩ := bind_ok h
    obtain ⟨m2, h2, h⟩ := bind_ok h
    cases h
    simp only [List.foldlM_cons, List.foldlM_nil] at h1 h2
    obtain ⟨_, ho, h1⟩ := bind_ok h1
    obtain ⟨_, hd, h1⟩ := bind_ok h1
    cases h1
    obtain ⟨_, hb, h2⟩ := bind_ok h2
    obtain ⟨_, hr, h2⟩ := bind_ok h2
    obtain ⟨_, hp, h2⟩ := bind_ok h2
    obtain ⟨_, hs, h2⟩ := bind_ok h2
    cases h2
    obtain ⟨lo, rfl⟩ := appendField_ok ho
    obtain ⟨ld, rfl⟩ := appendField_ok hd
    obtain ⟨lb, rfl⟩ := appendField_ok hb
    obtain ⟨lr, rfl⟩ := appendField_ok hr
    obtain ⟨lp, rfl⟩ := appendField_ok hp
    obtain ⟨ls, rfl⟩ := appendField_ok hs
    refine ⟨?_, ?_, ?_⟩
    · simp only [not_or, not_not] at hc
      exact hc.2.1
    · intro value hvalue
      simp only [List.mem_cons, List.not_mem_nil, or_false] at hvalue
      rcases hvalue with rfl | rfl | rfl | rfl | rfl | rfl
      · exact lo
      · exact ld
      · exact lb
      · exact lr
      · exact lp
      · exact ls
    · simp only [List.append_assoc]
  | _ => cases h

/-- A message determines its fields and the digest of its payload. -/
theorem deviceProofMessage_fields {sha256 : Bytes → Key} {a b : DeviceProofContext}
    {ca cb : Bytes} {pa pb : Json} {m : Bytes}
    (ha : deviceProofMessage sha256 a ca pa = .ok m)
    (hb : deviceProofMessage sha256 b cb pb = .ok m) :
    a.Same b ∧ ca = cb ∧ sha256 (canonicalJson pa) = sha256 (canonicalJson pb) := by
  obtain ⟨hca, hla, rfl⟩ := deviceProofMessage_ok ha
  obtain ⟨hcb, hlb, h⟩ := deviceProofMessage_ok hb
  have hfield : ∀ {x y : String} {s t : Bytes}, x ∈ [a.operation, a.deviceId,
      a.bindingId.getD "", a.releaseProfile, a.credentialProfile, a.serverHost] →
      y ∈ [b.operation, b.deviceId, b.bindingId.getD "", b.releaseProfile,
        b.credentialProfile, b.serverHost] →
      fieldBytes x ++ s = fieldBytes y ++ t → x = y ∧ s = t :=
    fun hx hy h => fieldBytes_append_inj (hla _ hx) (hlb _ hy) h
  have h := List.append_cancel_left h
  obtain ⟨hoperation, h⟩ := hfield (by simp) (by simp) h
  obtain ⟨hdevice, h⟩ := hfield (by simp) (by simp) h
  obtain ⟨hgeneration, h⟩ := List.append_inj h rfl
  obtain ⟨hoperationGeneration, h⟩ := List.append_inj h rfl
  obtain ⟨hbinding, h⟩ := hfield (by simp) (by simp) h
  obtain ⟨hrelease, h⟩ := hfield (by simp) (by simp) h
  obtain ⟨hprofile, h⟩ := hfield (by simp) (by simp) h
  obtain ⟨hhost, h⟩ := hfield (by simp) (by simp) h
  obtain ⟨hchallenge, h⟩ := List.append_inj h (hca.trans hcb.symm)
  exact ⟨⟨hoperation, hdevice, toBeBytes_injective hgeneration,
    toBeBytes_injective hoperationGeneration, hbinding, hrelease, hprofile, hhost⟩, hchallenge,
    Key.ext h⟩

/-- Two accepted requests have one message where they are one request, up to the order of the
payload's members; and a signature that verifies for one message only verifies for one request. -/
theorem deviceProofMessage_eq_iff {sha256 : Bytes → Key} {a b : DeviceProofContext}
    {ca cb : Bytes} {pa pb : Json} {ma mb : Bytes} (hpb : Strict pb)
    (ha : deviceProofMessage sha256 a ca pa = .ok ma)
    (hb : deviceProofMessage sha256 b cb pb = .ok mb)
    (hfree : ¬ Collision sha256 (canonicalJson pa) (canonicalJson pb)) :
    (ma = mb ↔ a.Same b ∧ ca = cb ∧ Json.Same pa pb) ∧
      ∀ Verifies : Bytes → Prop, (∀ m, Verifies m → m = ma) → Verifies mb →
        a.Same b ∧ ca = cb ∧ Json.Same pa pb := by
  have hone : ma = mb → a.Same b ∧ ca = cb ∧ Json.Same pa pb := by
    rintro rfl
    obtain ⟨hcontext, hchallenge, hdigest⟩ := deviceProofMessage_fields ha hb
    refine ⟨hcontext, hchallenge, (canonicalJson_eq_iff hpb).mp ?_⟩
    exact not_not.mp fun hne => hfree ⟨hne, hdigest⟩
  refine ⟨⟨hone, ?_⟩, fun Verifies honly hv => hone (honly mb hv).symm⟩
  rintro ⟨hs, rfl, hp⟩
  obtain ⟨-, -, rfl⟩ := deviceProofMessage_ok ha
  obtain ⟨-, -, rfl⟩ := deviceProofMessage_ok hb
  rw [hs.operation, hs.deviceId, hs.deviceGeneration, hs.operationGeneration, hs.bindingId,
    hs.releaseProfile, hs.credentialProfile, hs.serverHost,
    (canonicalJson_eq_iff hpb).mpr hp]

def sampleContext (bindingId : Option String) : DeviceProofContext :=
  ⟨"claim_binding", "device", 1, 1, bindingId, "community-local-trust", "community_file", "host"⟩

/-- An absent binding and an empty one have one message. -/
theorem sampleContext_message :
    deviceProofMessage (fun _ => onesKey) (sampleContext none) onesKey.bytes (.obj []) =
      deviceProofMessage (fun _ => onesKey) (sampleContext (some "")) onesKey.bytes (.obj []) := by
  obtain ⟨ma, ha⟩ : ∃ m, deviceProofMessage (fun _ => onesKey) (sampleContext none) onesKey.bytes
      (.obj []) = .ok m := ⟨_, rfl⟩
  obtain ⟨mb, hb⟩ : ∃ m, deviceProofMessage (fun _ => onesKey) (sampleContext (some ""))
      onesKey.bytes (.obj []) = .ok m := ⟨_, rfl⟩
  have hs : Strict (.obj []) := ⟨List.nodup_nil, trivial⟩
  have h := deviceProofMessage_eq_iff hs ha hb fun hc => hc.1 rfl
  rw [ha, hb, h.1.mpr ⟨⟨rfl, rfl, rfl, rfl, rfl, rfl, rfl, rfl⟩, rfl, [], .nil, trivial⟩]

end Protocol
end EgoBridge
