import EgoBridge.Protocol.Outer

/-!
# Protocol.Crypto

Session sealing, the associated data of an envelope, and the key wrap of a request.

ChaCha20-Poly1305, X25519 and SHA-256 come from libraries; `Primitives` are what the two programs
call of them, and random bytes are arguments.

* `unwrap_wrapSessionKey`         — the two ends of a key wrap agree on the key.
* `aadForOuter_injective`         — the associated data determines every routing field.
* `keyWrapTranscript_injective`   — a transcript determines its request, if no binding id in it
                                    has a NUL byte.
* `aadForOuter_ne_transcript`     — no text is both.
-/

namespace EgoBridge
namespace Protocol

open Json

structure Nonce where
  bytes : Bytes
  length_eq : bytes.length = 12
  deriving DecidableEq

theorem zeroNonce_length : (List.replicate 12 (0 : UInt8)).length = 12 := rfl

def Key.ofBytes (bytes : Bytes) : Option Key :=
  if h : bytes.length = 32 then some ⟨bytes, h⟩ else none

theorem Key.bytes_ofBytes {bytes : Bytes} {key : Key} (h : Key.ofBytes bytes = some key) :
    key.bytes = bytes := by
  unfold Key.ofBytes at h
  split at h
  · cases h
    rfl
  · cases h

structure Primitives where
  /-- `ChaCha20Poly1305::encrypt`: key, nonce, associated data, message. -/
  encrypt : Key → Bytes → Bytes → Bytes → Option Bytes
  decrypt : Key → Bytes → Bytes → Bytes → Option Bytes
  /-- X25519: our secret, their public key. -/
  diffieHellman : Key → Key → Key
  publicKey : Key → Key
  sha256 : Bytes → Key

/-- What the cipher does on the messages it is given: it seals up to its length limit, into the
message's length and a tag, and opens what it has sealed. -/
structure Primitives.Lawful (c : Primitives) : Prop where
  total : ∀ key nonce aad message, message.length ≤ 2 ^ 38 - 64 →
    ∃ text, c.encrypt key nonce aad message = some text
  length : ∀ {key nonce aad message text}, c.encrypt key nonce aad message = some text →
    text.length = message.length + 16
  opens : ∀ {key nonce aad message text}, c.encrypt key nonce aad message = some text →
    c.decrypt key nonce aad text = some message

/-! ## Session payloads -/

namespace Primitives

/-- `SessionCipher::seal`: nonce, ciphertext and detached tag. -/
def sealDetached (c : Primitives) (key : Key) (nonce : Nonce) (plaintext aad : Bytes) :
    Except ProtocolError (Bytes × Bytes × Bytes) :=
  match c.encrypt key nonce.bytes aad plaintext with
  | none => .error .authenticationFailed
  | some encrypted =>
    if encrypted.length < 16 then .error .authenticationFailed
    else
      .ok (nonce.bytes, encrypted.take (encrypted.length - 16),
        encrypted.drop (encrypted.length - 16))

/-- `SessionCipher::open`. -/
def openDetached (c : Primitives) (key : Key) (nonce ciphertext authTag aad : Bytes) :
    Except ProtocolError Bytes :=
  if nonce.length ≠ 12 ∨ authTag.length ≠ 16 then .error .invalidEncoding
  else
    match c.decrypt key nonce aad (ciphertext ++ authTag) with
    | none => .error .authenticationFailed
    | some plaintext => .ok plaintext

end Primitives

/-- The routing fields under the seal. -/
def OuterEnvelope.aadMembers (e : OuterEnvelope) : List (String × Json) :=
  [("protocol", .str e.protocol), ("channel", .str e.channel),
    ("relay_binding_kind", .str e.relayBindingKind), ("type", .str e.messageType.name),
    ("request_id", .str e.requestId), ("binding_id", .str e.bindingId),
    ("generation", ofU64 e.generation), ("sequence", ofU64 e.sequence),
    ("direction", .str e.direction.name), ("payload_bytes", ofNat e.payloadBytes)]

/-- Create authenticated associated data from outer routing fields. -/
def aadForOuter (e : OuterEnvelope) : Bytes := canonicalJson (.obj e.aadMembers)

/-! ## Key wraps -/

/-- `u64::to_be_bytes`. -/
def toBeBytes (n : UInt64) : Bytes :=
  [n >>> 56, n >>> 48, n >>> 40, n >>> 32, n >>> 24, n >>> 16, n >>> 8, n].map UInt64.toUInt8

def keyWrapTag : Bytes := utf8 "agent-remote/ego-browser/key-wrap/v1" ++ [0]

/-- The transcript of a key wrap. -/
def keyWrapTranscript (bindingId : String) (generation : UInt64) (requestId : String)
    (sequence : UInt64) : Bytes :=
  keyWrapTag ++ utf8 bindingId ++ 0 :: (toBeBytes generation ++ toBeBytes sequence ++
    utf8 requestId)

def deriveWrapKey (c : Primitives) (shared : Key) (transcript : Bytes) : Key :=
  c.sha256 (utf8 "agent-remote/ego-browser/key-wrap-key/v1" ++ [0] ++ shared.bytes ++ transcript)

/-- Unwrap a broker-delivered request key using the Bridge's X25519 secret. -/
def unwrapSessionKey (c : Primitives) (encoded : String) (recipientSecret : Key)
    (bindingId : String) (generation : UInt64) (requestId : String) (sequence : UInt64) :
    Except ProtocolError Key :=
  match Base64.decode encoded.toList with
  | none => .error .invalidEncoding
  | some wrapped =>
    if Base64.encode wrapped ≠ encoded.toList ∨ wrapped.length ≠ KEY_WRAP_BYTES then
      .error .invalidEncoding
    else
      match Key.ofBytes (wrapped.take 32) with
      | none => .error .invalidEncoding
      | some peer =>
        let shared := c.diffieHellman recipientSecret peer
        if shared.bytes.all (· = 0) then .error .authenticationFailed
        else
          let aad := keyWrapTranscript bindingId generation requestId sequence
          match c.decrypt (deriveWrapKey c shared aad) ((wrapped.drop 32).take 12) aad
            ((wrapped.drop 44).take 32 ++ (wrapped.drop 76).take 16) with
          | none => .error .authenticationFailed
          | some plaintext =>
            match Key.ofBytes plaintext with
            | none => .error .authenticationFailed
            | some key => .ok key

/-- Wrap a per-request session key to the Bridge's X25519 public key. -/
def wrapSessionKey (c : Primitives) (sessionKey recipientPublicKey ephemeral : Key)
    (nonce : Nonce) (bindingId : String) (generation : UInt64) (requestId : String)
    (sequence : UInt64) : Except ProtocolError String :=
  let shared := c.diffieHellman ephemeral recipientPublicKey
  if shared.bytes.all (· = 0) then .error .authenticationFailed
  else
    let aad := keyWrapTranscript bindingId generation requestId sequence
    match c.encrypt (deriveWrapKey c shared aad) nonce.bytes aad sessionKey.bytes with
    | none => .error .authenticationFailed
    | some encrypted =>
      if encrypted.length ≠ 32 + 16 then .error .authenticationFailed
      else
        .ok (encodeB64url ((c.publicKey ephemeral).bytes ++ nonce.bytes ++ encrypted.take 32 ++
          encrypted.drop 32))

theorem Key.ofBytes_bytes (key : Key) : Key.ofBytes key.bytes = some key := dif_pos key.length_eq

/-- The unwrapping of a tuple of a public key, a nonce and a text. -/
theorem unwrapSessionKey_encode {c : Primitives} {secret peer : Key} {nonce : Nonce}
    {text : Bytes} {bindingId requestId : String} {generation sequence : UInt64}
    (ht : text.length = 48) :
    unwrapSessionKey c (encodeB64url (peer.bytes ++ nonce.bytes ++ text)) secret bindingId
        generation requestId sequence =
      if (c.diffieHellman secret peer).bytes.all (· = 0) then .error .authenticationFailed
      else
        match c.decrypt
          (deriveWrapKey c (c.diffieHellman secret peer)
            (keyWrapTranscript bindingId generation requestId sequence))
          nonce.bytes (keyWrapTranscript bindingId generation requestId sequence) text with
        | none => .error .authenticationFailed
        | some plaintext =>
          match Key.ofBytes plaintext with
          | none => .error .authenticationFailed
          | some key => .ok key := by
  have hp := peer.length_eq
  have hn := nonce.length_eq
  have hw : (peer.bytes ++ nonce.bytes ++ text).length = KEY_WRAP_BYTES := by
    simp [hp, hn, ht, KEY_WRAP_BYTES]
  have hpeer : (peer.bytes ++ nonce.bytes ++ text).take 32 = peer.bytes := by
    rw [List.append_assoc, List.take_left' hp]
  have hnonce : ((peer.bytes ++ nonce.bytes ++ text).drop 32).take 12 = nonce.bytes := by
    rw [List.append_assoc, List.drop_left' hp, List.take_left' hn]
  have htext : ((peer.bytes ++ nonce.bytes ++ text).drop 44).take 32 ++
      ((peer.bytes ++ nonce.bytes ++ text).drop 76).take 16 = text := by
    have h44 : (peer.bytes ++ nonce.bytes).length = 44 := by simp [hp, hn]
    rw [show 76 = 44 + 32 from rfl, ← List.drop_drop, List.drop_left' h44,
      List.take_of_length_le (l := text.drop 32) (by rw [List.length_drop]; omega),
      List.take_append_drop]
  rw [unwrapSessionKey, encodeB64url, String.toList_ofList, Base64.decode_encode]
  dsimp only
  rw [if_neg (not_or.mpr ⟨not_not.mpr rfl, not_not.mpr hw⟩), hpeer, Key.ofBytes_bytes]
  dsimp only
  rw [hnonce, htext]

/-- A tuple of a public key, a nonce and a text that opens is unwrapped. -/
theorem unwrapSessionKey_tuple {c : Primitives} {secret peer key : Key} {nonce : Nonce}
    {text : Bytes} {bindingId requestId : String} {generation sequence : UInt64}
    (hs : ¬ (c.diffieHellman secret peer).bytes.all (· = 0)) (ht : text.length = 48)
    (hd : c.decrypt
      (deriveWrapKey c (c.diffieHellman secret peer)
        (keyWrapTranscript bindingId generation requestId sequence))
      nonce.bytes (keyWrapTranscript bindingId generation requestId sequence) text =
        some key.bytes) :
    unwrapSessionKey c (encodeB64url (peer.bytes ++ nonce.bytes ++ text)) secret bindingId
      generation requestId sequence = .ok key := by
  rw [unwrapSessionKey_encode ht, if_neg hs, hd]
  dsimp only
  rw [Key.ofBytes_bytes]

/-- What is unwrapped from a tuple is what its text opens to. -/
theorem unwrapSessionKey_tuple_ok {c : Primitives} {secret peer key : Key} {nonce : Nonce}
    {text : Bytes} {bindingId requestId : String} {generation sequence : UInt64}
    (ht : text.length = 48)
    (h : unwrapSessionKey c (encodeB64url (peer.bytes ++ nonce.bytes ++ text)) secret bindingId
      generation requestId sequence = .ok key) :
    c.decrypt
      (deriveWrapKey c (c.diffieHellman secret peer)
        (keyWrapTranscript bindingId generation requestId sequence))
      nonce.bytes (keyWrapTranscript bindingId generation requestId sequence) text =
        some key.bytes := by
  rw [unwrapSessionKey_encode ht] at h
  split at h
  · cases h
  · split at h
    · cases h
    · rename_i plaintext hd
      split at h
      · cases h
      · rename_i k hk
        cases h
        rw [hd, Key.bytes_ofBytes hk]

/-- The two ends of a key wrap agree on the key. -/
theorem unwrap_wrapSessionKey {c : Primitives} (hc : c.Lawful)
    (hdh : ∀ a b, c.diffieHellman a (c.publicKey b) = c.diffieHellman b (c.publicKey a))
    {sessionKey secret ephemeral : Key} {nonce : Nonce} {bindingId requestId encoded : String}
    {generation sequence : UInt64}
    (h : wrapSessionKey c sessionKey (c.publicKey secret) ephemeral nonce bindingId generation
      requestId sequence = .ok encoded) :
    unwrapSessionKey c encoded secret bindingId generation requestId sequence =
      .ok sessionKey := by
  unfold wrapSessionKey at h
  dsimp only at h
  split at h
  · cases h
  · rename_i hs
    split at h
    · cases h
    · rename_i text ht
      split at h
      · cases h
      · rename_i hl
        cases h
        rw [List.append_assoc, List.take_append_drop]
        rw [hdh] at hs ht
        exact unwrapSessionKey_tuple hs (not_not.mp hl) (hc.opens ht)

/-- An unwrapped key was sealed under the transcript of the request. -/
theorem unwrapSessionKey_ok {c : Primitives} {encoded : String} {secret key : Key}
    {bindingId requestId : String} {generation sequence : UInt64}
    (h : unwrapSessionKey c encoded secret bindingId generation requestId sequence = .ok key) :
    ∃ wrapKey nonce text, c.decrypt wrapKey nonce
      (keyWrapTranscript bindingId generation requestId sequence) text = some key.bytes := by
  unfold unwrapSessionKey at h
  split at h
  · cases h
  · split at h
    · cases h
    · split at h
      · cases h
      · dsimp only at h
        split at h
        · cases h
        · split at h
          · cases h
          · rename_i plaintext hd
            split at h
            · cases h
            · rename_i k hk
              cases h
              rw [Key.bytes_ofBytes hk]
              exact ⟨_, _, _, hd⟩

/-! ## Injective encodings -/

/-- Two envelopes agree on every field but the sealed texts and the key wrap. -/
structure OuterEnvelope.SameRouting (a b : OuterEnvelope) : Prop where
  protocol : a.protocol = b.protocol
  channel : a.channel = b.channel
  relayBindingKind : a.relayBindingKind = b.relayBindingKind
  messageType : a.messageType = b.messageType
  requestId : a.requestId = b.requestId
  bindingId : a.bindingId = b.bindingId
  generation : a.generation = b.generation
  sequence : a.sequence = b.sequence
  direction : a.direction = b.direction
  payloadBytes : a.payloadBytes = b.payloadBytes

theorem ofNat_injective {m n : Nat} (h : ofNat m = ofNat n) : m = n := by
  have hm : m < 2 ^ (m + n) :=
    Nat.lt_two_pow_self.trans_le (Nat.pow_le_pow_right Nat.zero_lt_two (by omega))
  have hn : n < 2 ^ (m + n) :=
    Nat.lt_two_pow_self.trans_le (Nat.pow_le_pow_right Nat.zero_lt_two (by omega))
  have := congrArg (asNat (m + n)) h
  rwa [asNat_ofNat hm, asNat_ofNat hn, Option.some_inj] at this

theorem ofU64_injective {m n : UInt64} (h : ofU64 m = ofU64 n) : m = n :=
  UInt64.toNat_inj.mp (ofNat_injective h)

def OuterEnvelope.aadNames : List String :=
  ["protocol", "channel", "relay_binding_kind", "type", "request_id", "binding_id", "generation",
    "sequence", "direction", "payload_bytes"]

def OuterEnvelope.aadValues (e : OuterEnvelope) : List Json :=
  [.str e.protocol, .str e.channel, .str e.relayBindingKind, .str e.messageType.name,
    .str e.requestId, .str e.bindingId, ofU64 e.generation, ofU64 e.sequence,
    .str e.direction.name, ofNat e.payloadBytes]

theorem OuterEnvelope.aadMembers_eq (e : OuterEnvelope) : e.aadMembers = aadNames.zip e.aadValues :=
  rfl

theorem OuterEnvelope.aadMembers_strict (e : OuterEnvelope) :
    Strict (.obj (aadNames.zip e.aadValues)) := by
  simp [aadNames, aadValues, Strict, StrictMembers]

/-- The associated data determines every routing field. -/
theorem aadForOuter_injective {a b : OuterEnvelope} (h : aadForOuter a = aadForOuter b) :
    a.SameRouting b := by
  rw [aadForOuter, aadForOuter, a.aadMembers_eq, b.aadMembers_eq] at h
  have hv := values_of_canonicalJson rfl rfl a.aadMembers_strict b.aadMembers_strict h
  simp only [OuterEnvelope.aadValues, List.map_cons, List.map_nil, canonicalValue_str,
    canonicalValue_ofU64, canonicalValue_ofNat, List.cons.injEq, Json.str.injEq] at hv
  obtain ⟨h1, h2, h3, h4, h5, h6, h7, h8, h9, h10, _⟩ := hv
  exact ⟨h1, h2, h3, OuterMessageType.name_injective h4, h5, h6, ofU64_injective h7,
    ofU64_injective h8, Direction.name_injective h9, ofNat_injective h10⟩

@[simp] theorem toBeBytes_length (n : UInt64) : (toBeBytes n).length = 8 := rfl

theorem toBeBytes_injective {m n : UInt64} (h : toBeBytes m = toBeBytes n) : m = n := by
  simp only [toBeBytes, List.map_cons, List.map_nil, List.cons.injEq, ← UInt8.toNat_inj,
    UInt64.toNat_toUInt8, UInt64.toNat_shiftRight, Nat.shiftRight_eq_div_pow] at h
  have hm := m.toNat_lt
  have hn := n.toNat_lt
  rw [← UInt64.toNat_inj]
  simp at h
  omega

/-- A separator that occurs in neither of two texts ends both of them. -/
theorem append_separator_inj {α : Type} {z : α} {a b x y : List α} (ha : z ∉ a) (hb : z ∉ b)
    (h : a ++ z :: x = b ++ z :: y) : a = b ∧ x = y := by
  induction a generalizing b with
  | nil =>
    cases b with
    | nil => exact ⟨rfl, (List.cons.inj h).2⟩
    | cons c b => exact absurd ((List.cons.inj h).1 ▸ List.mem_cons_self) hb
  | cons c a ih =>
    cases b with
    | nil => exact absurd ((List.cons.inj h).1 ▸ List.mem_cons_self) ha
    | cons d b =>
      obtain ⟨hcd, h⟩ := List.cons.inj h
      obtain ⟨hab, hxy⟩ := ih (fun hm => ha (List.mem_cons_of_mem _ hm))
        (fun hm => hb (List.mem_cons_of_mem _ hm)) h
      exact ⟨by rw [hcd, hab], hxy⟩

/-- A transcript determines its request, if no binding id in it has a NUL byte. -/
theorem keyWrapTranscript_injective {b b' r r' : String} {g g' s s' : UInt64}
    (hb : 0 ∉ utf8 b) (hb' : 0 ∉ utf8 b')
    (h : keyWrapTranscript b g r s = keyWrapTranscript b' g' r' s') :
    b = b' ∧ g = g' ∧ r = r' ∧ s = s' := by
  simp only [keyWrapTranscript, List.append_assoc, List.append_cancel_left_eq] at h
  obtain ⟨h1, h2⟩ := append_separator_inj hb hb' h
  obtain ⟨hg, h2⟩ := List.append_inj h2 (by rw [toBeBytes_length, toBeBytes_length])
  obtain ⟨hs, hr⟩ := List.append_inj h2 (by rw [toBeBytes_length, toBeBytes_length])
  exact ⟨utf8_injective h1, toBeBytes_injective hg, utf8_injective hr, toBeBytes_injective hs⟩

theorem zero_notMem_of_validTextId {value : String} {maximum : Nat}
    (h : validTextId value maximum = true) : 0 ∉ utf8 value := by
  simp only [validTextId, Bool.and_eq_true, List.all_eq_true] at h
  intro h0
  have := h.2 0 h0
  cases this

theorem aadForOuter_head (e : OuterEnvelope) : ∃ r, aadForOuter e = 0x7b :: r := by
  have hr : ∀ ms, ∃ cs, render (.obj ms) = '{' :: cs := fun ms => by cases ms <;> exact ⟨_, rfl⟩
  rw [aadForOuter, canonicalJson, canonicalValue]
  obtain ⟨cs, hcs⟩ := hr ((canonicalMembers e.aadMembers).insertionSort keyLe)
  rw [hcs, utf8_ofList_cons]
  exact ⟨_, rfl⟩

/-- No associated data of an envelope is the transcript of a key wrap. -/
theorem aadForOuter_ne_transcript (e : OuterEnvelope) (b : String) (g : UInt64) (r : String)
    (s : UInt64) : aadForOuter e ≠ keyWrapTranscript b g r s := by
  obtain ⟨x, hx⟩ := aadForOuter_head e
  have ht : (keyWrapTranscript b g r s).head? = some 0x61 := by
    rw [keyWrapTranscript, List.append_assoc]
    rfl
  intro h
  rw [← h, hx] at ht
  cases ht

/-- A cipher that leaves the message as it is, with a tag of zeros. -/
def plainCipher : Primitives where
  encrypt := fun _ _ _ message =>
    if message.length ≤ 2 ^ 38 - 64 then some (message ++ List.replicate 16 0) else none
  decrypt := fun _ _ _ text =>
    if text.drop (text.length - 16) = List.replicate 16 0 then
      some (text.take (text.length - 16))
    else none
  diffieHellman := fun _ peer => peer
  publicKey := fun secret => secret
  sha256 := fun _ => ⟨List.replicate 32 1, ones_length⟩

theorem plainCipher_lawful : plainCipher.Lawful where
  total := fun _ _ _ _ h => ⟨_, if_pos h⟩
  length := by
    intro _ _ _ message text h
    obtain ⟨_, h⟩ := Option.ite_none_right_eq_some.mp h
    cases h
    simp
  opens := by
    intro _ _ _ message text h
    obtain ⟨_, h⟩ := Option.ite_none_right_eq_some.mp h
    cases h
    simp [plainCipher]

theorem plainCipher_opens (key : Key) (nonce aad message : Bytes) :
    plainCipher.decrypt key nonce aad (message ++ List.replicate 16 0) = some message := by
  simp [plainCipher]

def plainKey : Key := ⟨List.replicate 32 1, ones_length⟩

end Protocol
end EgoBridge
