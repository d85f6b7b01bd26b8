import EgoBridge.Lib.Base64
import EgoBridge.Json.Size
import EgoBridge.Protocol.Codec

/-!
# Protocol.Outer

The outer envelope's checks: routing and replay metadata, lengths, and the bound on the frame.

* `OuterEnvelope.Valid`       — what `validate` asks for, as one record of facts.
* `OuterEnvelope.validate_ok` — `validate` accepts exactly the valid envelopes.
-/

namespace EgoBridge
namespace Protocol

open Json

/-- Encode bytes as unpadded base64url. -/
def encodeB64url (bytes : Bytes) : String := String.ofList (Base64.encode bytes)

/-- `decode_b64`: canonical unpadded base64url. -/
def decodeB64 (value : String) : Option Bytes :=
  match Base64.decode value.toList with
  | none => none
  | some decoded => if Base64.encode decoded ≠ value.toList then none else some decoded

@[simp] theorem decodeB64_encodeB64url (bytes : Bytes) :
    decodeB64 (encodeB64url bytes) = some bytes := by
  simp [decodeB64, encodeB64url]

@[simp] theorem decodeB64_empty : decodeB64 "" = some [] := rfl

theorem symbol_size : ∀ n, n < 64 → escapedCharSize (Base64.sym n) = 1 := by
  decide

/-- A text without characters to escape has one byte for each. -/
theorem plainText_size {cs : List Char} (h : ∀ ch ∈ cs, escapedCharSize ch = 1) :
    (cs.map escapedCharSize).sum = cs.length := by
  induction cs with
  | nil => rfl
  | cons ch cs ih =>
    rw [List.map_cons, List.sum_cons, h ch List.mem_cons_self,
      ih fun d hd => h d (List.mem_cons_of_mem _ hd), List.length_cons]
    omega

theorem encodeB64url_size (bytes : Bytes) :
    escapedSize (encodeB64url bytes) = (4 * bytes.length + 2) / 3 := by
  rw [← Base64.encode_length, escapedSize, encodeB64url, String.toList_ofList]
  refine plainText_size fun ch hch => ?_
  obtain ⟨n, hn, rfl⟩ := Base64.mem_encode hch
  exact symbol_size n hn

namespace OuterEnvelope

/-- `serde_json::to_vec(self).len()`. -/
def wireSize (e : OuterEnvelope) : Nat := size e.toJson

theorem wireSize_eq (e : OuterEnvelope) :
    e.wireSize = 207 + escapedSize e.protocol + escapedSize e.channel +
      escapedSize e.relayBindingKind + escapedSize e.messageType.name + escapedSize e.requestId +
      escapedSize e.bindingId + decimalSize e.generation.toNat + decimalSize e.sequence.toNat +
      escapedSize e.direction.name + decimalSize e.payloadBytes + escapedSize e.nonce +
      escapedSize e.ciphertext + escapedSize e.authTag + escapedSize e.keyWrap := by
  rw [wireSize, toJson, size_obj]
  simp only [membersSize, members, List.map_cons, List.map_nil, List.sum_cons, List.sum_nil,
    size_str, size_ofU64, size_ofNat,
    show escapedSize "protocol" = 8 from rfl, show escapedSize "channel" = 7 from rfl,
    show escapedSize "relay_binding_kind" = 18 from rfl, show escapedSize "type" = 4 from rfl,
    show escapedSize "request_id" = 10 from rfl, show escapedSize "binding_id" = 10 from rfl,
    show escapedSize "generation" = 10 from rfl, show escapedSize "sequence" = 8 from rfl,
    show escapedSize "direction" = 9 from rfl, show escapedSize "payload_bytes" = 13 from rfl,
    show escapedSize "nonce" = 5 from rfl, show escapedSize "ciphertext" = 10 from rfl,
    show escapedSize "auth_tag" = 8 from rfl, show escapedSize "key_wrap" = 8 from rfl]
  omega

/-- The part of `validate` before any decoding. -/
def validateRouting (e : OuterEnvelope) (maxWireFrameBytes : Nat) : Except ProtocolError Unit :=
  if e.protocol ≠ PROTOCOL_VERSION ∨ e.channel ≠ "ego_browser_bridge" ∨
      e.relayBindingKind ≠ "ego_browser" then
    .error (.invalidOuter "protocol or channel")
  else if e.messageType ≠ .execute ∧ e.messageType ≠ .executeResult ∧
      e.messageType ≠ .cancel then
    .error (.invalidOuter "message type")
  else if (e.direction = .request ∧ e.messageType ≠ .execute ∧ e.messageType ≠ .cancel) ∨
      (e.direction = .response ∧ e.messageType ≠ .executeResult) then
    .error (.invalidOuter "type or direction")
  else if ¬ validTextId e.requestId 128 then .error (.invalidOuter "request_id")
  else if ¬ validTextId e.bindingId 128 then .error (.invalidOuter "binding_id")
  else if e.generation = 0 ∨ e.sequence = 0 then .error (.invalidOuter "generation or sequence")
  else if maxWireFrameBytes < e.payloadBytes then .error .frameTooLarge
  else .ok ()

def validatePayload (e : OuterEnvelope) : Except ProtocolError Unit :=
  match decodeB64 e.ciphertext, decodeB64 e.nonce, decodeB64 e.authTag with
  | none, _, _ => .error (.invalidOuter "ciphertext encoding")
  | some _, none, _ => .error (.invalidOuter "nonce encoding")
  | some _, some _, none => .error (.invalidOuter "auth tag encoding")
  | some ciphertext, some nonce, some tag =>
    if nonce.length ≠ 12 ∨ tag.length ≠ 16 ∨ ciphertext.length ≠ e.payloadBytes then
      .error (.invalidOuter "payload lengths")
    else if ciphertext.isEmpty then .error (.invalidOuter "empty ciphertext")
    else .ok ()

def validateFrame (e : OuterEnvelope) (maxWireFrameBytes : Nat) : Except ProtocolError Unit :=
  match decodeB64 e.keyWrap with
  | none => .error (.invalidOuter "key wrap encoding")
  | some wrapped =>
    if e.messageType = .execute ∧
        (e.direction ≠ .request ∨ (¬ e.keyWrap.isEmpty ∧ wrapped.length ≠ KEY_WRAP_BYTES))
    then .error (.invalidOuter "key wrap length")
    else if e.messageType ≠ .execute ∧ (¬ e.keyWrap.isEmpty ∨ ¬ wrapped.isEmpty) then
      .error (.invalidOuter "non-execute key wrap")
    -- this bound includes the JSON envelope, not just the ciphertext
    else if maxWireFrameBytes < e.wireSize then .error .frameTooLarge
    else .ok ()

/-- Validate routing and replay metadata without decrypting the payload. -/
def validate (e : OuterEnvelope) (maxWireFrameBytes : Nat) : Except ProtocolError Unit := do
  e.validateRouting maxWireFrameBytes
  e.validatePayload
  e.validateFrame maxWireFrameBytes

/-- Require a complete key wrap on a request before local execution. -/
def validateKeyWrap (e : OuterEnvelope) : Except ProtocolError Unit :=
  if e.messageType ≠ .execute ∨ e.direction ≠ .request then
    .error (.invalidOuter "key wrap direction")
  else
    match decodeB64 e.keyWrap with
    | none => .error (.invalidOuter "key wrap encoding")
    | some wrapped =>
      if wrapped.length ≠ KEY_WRAP_BYTES then .error (.invalidOuter "key wrap length")
      else .ok ()

/-- The decoded ciphertext, nonce, and authentication tag. -/
def decodedPayload (e : OuterEnvelope) : Except ProtocolError (Bytes × Bytes × Bytes) :=
  match decodeB64 e.ciphertext, decodeB64 e.nonce, decodeB64 e.authTag with
  | none, _, _ => .error (.invalidOuter "ciphertext encoding")
  | some _, none, _ => .error (.invalidOuter "nonce encoding")
  | some _, some _, none => .error (.invalidOuter "auth tag encoding")
  | some ciphertext, some nonce, some tag => .ok (ciphertext, nonce, tag)

/-! ## Valid envelopes -/

/-- The three texts of a payload are the encodings of these bytes. -/
structure Carries (e : OuterEnvelope) (ciphertext nonce tag : Bytes) : Prop where
  ciphertext : decodeB64 e.ciphertext = some ciphertext
  nonce : decodeB64 e.nonce = some nonce
  tag : decodeB64 e.authTag = some tag

structure Routed (e : OuterEnvelope) (maxWireFrameBytes : Nat) : Prop where
  protocol : e.protocol = PROTOCOL_VERSION
  channel : e.channel = "ego_browser_bridge"
  relayBindingKind : e.relayBindingKind = "ego_browser"
  typed : (e.direction = .request ∧ (e.messageType = .execute ∨ e.messageType = .cancel)) ∨
    (e.direction = .response ∧ e.messageType = .executeResult)
  requestId : validTextId e.requestId 128 = true
  bindingId : validTextId e.bindingId 128 = true
  generation : e.generation ≠ 0
  sequence : e.sequence ≠ 0
  payloadBytes : e.payloadBytes ≤ maxWireFrameBytes

structure Valid (e : OuterEnvelope) (maxWireFrameBytes : Nat) : Prop
    extends e.Routed maxWireFrameBytes where
  payload : ∃ ciphertext nonce tag, e.Carries ciphertext nonce tag ∧ nonce.length = 12 ∧
    tag.length = 16 ∧ ciphertext.length = e.payloadBytes ∧ ciphertext ≠ []
  keyWrap : e.keyWrap = "" ∨ (e.messageType = .execute ∧
    ∃ wrapped, decodeB64 e.keyWrap = some wrapped ∧ wrapped.length = KEY_WRAP_BYTES)
  wireSize : e.wireSize ≤ maxWireFrameBytes

theorem Carries.decodedPayload {e : OuterEnvelope} {ciphertext nonce tag : Bytes}
    (h : e.Carries ciphertext nonce tag) : e.decodedPayload = .ok (ciphertext, nonce, tag) := by
  rw [OuterEnvelope.decodedPayload, h.ciphertext, h.nonce, h.tag]

theorem carries_of_decodedPayload {e : OuterEnvelope} {ciphertext nonce tag : Bytes}
    (h : e.decodedPayload = .ok (ciphertext, nonce, tag)) : e.Carries ciphertext nonce tag := by
  unfold OuterEnvelope.decodedPayload at h
  split at h
  · cases h
  · cases h
  · cases h
  · rename_i hc hn ht
    cases h
    exact ⟨hc, hn, ht⟩

theorem validateRouting_ok {e : OuterEnvelope} {n : Nat} :
    e.validateRouting n = .ok () ↔ e.Routed n := by
  constructor
  · intro h
    unfold validateRouting at h
    split at h
    · cases h
    rename_i hroute
    split at h
    · cases h
    rename_i htype
    split at h
    · cases h
    rename_i hdir
    split at h
    · cases h
    rename_i hreq
    split at h
    · cases h
    rename_i hbind
    split at h
    · cases h
    rename_i hseq
    split at h
    · cases h
    rename_i hbytes
    simp only [not_or, not_not] at hroute hseq
    refine ⟨hroute.1, hroute.2.1, hroute.2.2, ?_, not_not.mp hreq, not_not.mp hbind, hseq.1,
      hseq.2, Nat.not_lt.mp hbytes⟩
    cases hd : e.direction <;> cases hm : e.messageType <;> simp [hd, hm] at hdir htype ⊢
  · intro h
    unfold validateRouting
    rw [if_neg (by simp [h.protocol, h.channel, h.relayBindingKind]),
      if_neg (by rcases h.typed with ⟨_, hm | hm⟩ | ⟨_, hm⟩ <;> simp [hm]),
      if_neg (by rcases h.typed with ⟨hd, hm | hm⟩ | ⟨hd, hm⟩ <;> simp [hd, hm]),
      if_neg (by simp [h.requestId]), if_neg (by simp [h.bindingId]),
      if_neg (by simp [h.generation, h.sequence]), if_neg (Nat.not_lt.mpr h.payloadBytes)]

theorem validatePayload_ok {e : OuterEnvelope} :
    e.validatePayload = .ok () ↔
      ∃ ciphertext nonce tag, e.Carries ciphertext nonce tag ∧ nonce.length = 12 ∧
        tag.length = 16 ∧ ciphertext.length = e.payloadBytes ∧ ciphertext ≠ [] := by
  constructor
  · intro h
    unfold validatePayload at h
    split at h
    · cases h
    · cases h
    · cases h
    rename_i ciphertext nonce tag hc hn ht
    split at h
    · cases h
    rename_i hlen
    split at h
    · cases h
    rename_i hne
    simp only [not_or, not_not] at hlen
    exact ⟨ciphertext, nonce, tag, ⟨hc, hn, ht⟩, hlen.1, hlen.2.1, hlen.2.2, by simpa using hne⟩
  · rintro ⟨ciphertext, nonce, tag, hp, hn, ht, hc, hne⟩
    simp [validatePayload, hp.ciphertext, hp.nonce, hp.tag, hn, ht, hc, hne]

theorem validateFrame_ok {e : OuterEnvelope} {n : Nat} (hr : e.Routed n) :
    e.validateFrame n = .ok () ↔
      (e.keyWrap = "" ∨ (e.messageType = .execute ∧
        ∃ wrapped, decodeB64 e.keyWrap = some wrapped ∧ wrapped.length = KEY_WRAP_BYTES)) ∧
      e.wireSize ≤ n := by
  constructor
  · intro h
    unfold validateFrame at h
    split at h
    · cases h
    rename_i wrapped hw
    split at h
    · cases h
    rename_i hexec
    split at h
    · cases h
    rename_i hother
    split at h
    · cases h
    rename_i hwire
    refine ⟨?_, Nat.not_lt.mp hwire⟩
    by_cases hk : e.keyWrap = ""
    · exact .inl hk
    · have hnil : ¬ (e.keyWrap.isEmpty = true) := by simpa using hk
      by_cases hm : e.messageType = .execute
      · refine .inr ⟨hm, wrapped, hw, ?_⟩
        exact not_not.mp fun hl => hexec ⟨hm, .inr ⟨hnil, hl⟩⟩
      · exact absurd ⟨hm, .inl hnil⟩ hother
  · rintro ⟨hk | ⟨hm, wrapped, hw, hl⟩, hwire⟩
    · have hd : e.messageType = .execute → e.direction = .request := by
        rcases hr.typed with ⟨hd, _⟩ | ⟨_, hm⟩
        · exact fun _ => hd
        · simp [hm]
      simp only [validateFrame, hk, decodeB64_empty]
      rw [if_neg (by simp; exact hd), if_neg (by simp), if_neg (Nat.not_lt.mpr hwire)]
    · have hd : e.direction = .request := by
        rcases hr.typed with ⟨hd, _⟩ | ⟨_, hm'⟩
        · exact hd
        · rw [hm] at hm'
          cases hm'
      simp only [validateFrame, hw]
      rw [if_neg (by simp [hd, hl]), if_neg (by simp [hm]), if_neg (Nat.not_lt.mpr hwire)]

/-- `validate` accepts exactly the valid envelopes. -/
theorem validate_ok {e : OuterEnvelope} {n : Nat} : e.validate n = .ok () ↔ e.Valid n := by
  constructor
  · intro h
    obtain ⟨_, hr, h⟩ := bind_ok h
    obtain ⟨_, hp, h⟩ := bind_ok h
    have hr := validateRouting_ok.mp hr
    have hf := (validateFrame_ok hr).mp h
    exact { hr with payload := validatePayload_ok.mp hp, keyWrap := hf.1, wireSize := hf.2 }
  · intro h
    have hr := validateRouting_ok.mpr h.toRouted
    have hp := validatePayload_ok.mpr h.payload
    have hf := (validateFrame_ok h.toRouted).mpr ⟨h.keyWrap, h.wireSize⟩
    rw [validate, hr, ok_bind, hp, ok_bind, hf]

theorem validateKeyWrap_ok {e : OuterEnvelope} (h : e.validateKeyWrap = .ok ()) :
    e.messageType = .execute ∧ e.direction = .request ∧
      ∃ wrapped, decodeB64 e.keyWrap = some wrapped ∧ wrapped.length = KEY_WRAP_BYTES := by
  unfold validateKeyWrap at h
  split at h
  · cases h
  rename_i ht
  split at h
  · cases h
  rename_i wrapped hw
  split at h
  · cases h
  rename_i hl
  simp only [not_or, not_not] at ht
  exact ⟨ht.1, ht.2, wrapped, hw, not_not.mp hl⟩

end OuterEnvelope

end Protocol
end EgoBridge
