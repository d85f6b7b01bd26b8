import EgoBridge.Device.Records

/-!
# Device.KeyFile

What a key file can be.

* `decodeIdentity_current`, `decodeIdentity_legacy` — what is read of a file of each format.
* `decodeIdentity_ok`  — a file that is accepted is of one of the formats, or has the legacy tag and
  the length of the current one.
* `identity_codec_iff` — the codec is exact on every other byte string.
-/

namespace EgoBridge
namespace Device

open Protocol

/-! ## Big-endian numbers -/

theorem fromBeBytes_toNat (b0 b1 b2 b3 b4 b5 b6 b7 : UInt8) :
    (fromBeBytes [b0, b1, b2, b3, b4, b5, b6, b7]).toNat =
      b0.toNat * 2 ^ 56 + b1.toNat * 2 ^ 48 + b2.toNat * 2 ^ 40 + b3.toNat * 2 ^ 32 +
        b4.toNat * 2 ^ 24 + b5.toNat * 2 ^ 16 + b6.toNat * 2 ^ 8 + b7.toNat := by
  have h0 := b0.toNat_lt
  have h1 := b1.toNat_lt
  have h2 := b2.toNat_lt
  have h3 := b3.toNat_lt
  have h4 := b4.toNat_lt
  have h5 := b5.toNat_lt
  have h6 := b6.toNat_lt
  have h7 := b7.toNat_lt
  simp only [fromBeBytes, List.foldl_cons, List.foldl_nil, UInt64.toNat_add, UInt64.toNat_mul,
    UInt8.toNat_toUInt64]
  simp
  omega

theorem eight_bytes {bytes : Bytes} (h : bytes.length = 8) : ∃ b0 b1 b2 b3 b4 b5 b6 b7,
    bytes = [b0, b1, b2, b3, b4, b5, b6, b7] := by
  obtain ⟨b0, bytes, rfl⟩ := List.exists_of_length_succ bytes h
  obtain ⟨b1, bytes, rfl⟩ := List.exists_of_length_succ bytes (Nat.succ.inj h)
  simp only [List.length_cons] at h
  obtain ⟨b2, bytes, rfl⟩ := List.exists_of_length_succ bytes (n := 5) (by omega)
  simp only [List.length_cons] at h
  obtain ⟨b3, bytes, rfl⟩ := List.exists_of_length_succ bytes (n := 4) (by omega)
  simp only [List.length_cons] at h
  obtain ⟨b4, bytes, rfl⟩ := List.exists_of_length_succ bytes (n := 3) (by omega)
  simp only [List.length_cons] at h
  obtain ⟨b5, bytes, rfl⟩ := List.exists_of_length_succ bytes (n := 2) (by omega)
  simp only [List.length_cons] at h
  obtain ⟨b6, b7, rfl⟩ := List.length_eq_two.mp (show bytes.length = 2 by omega)
  exact ⟨b0, b1, b2, b3, b4, b5, b6, b7, rfl⟩

theorem toBeBytes_fromBeBytes {bytes : Bytes} (h : bytes.length = 8) :
    toBeBytes (fromBeBytes bytes) = bytes := by
  obtain ⟨b0, b1, b2, b3, b4, b5, b6, b7, rfl⟩ := eight_bytes h
  have hn := fromBeBytes_toNat b0 b1 b2 b3 b4 b5 b6 b7
  have h0 := b0.toNat_lt
  have h1 := b1.toNat_lt
  have h2 := b2.toNat_lt
  have h3 := b3.toNat_lt
  have h4 := b4.toNat_lt
  have h5 := b5.toNat_lt
  have h6 := b6.toNat_lt
  have h7 := b7.toNat_lt
  generalize fromBeBytes [b0, b1, b2, b3, b4, b5, b6, b7] = n at hn
  simp only [toBeBytes, List.map_cons, List.map_nil, List.cons.injEq, and_true, ← UInt8.toNat_inj,
    UInt64.toNat_toUInt8, UInt64.toNat_shiftRight, Nat.shiftRight_eq_div_pow, hn]
  refine ⟨?_, ?_, ?_, ?_, ?_, ?_, ?_, ?_⟩ <;> simp <;> omega

/-! ## Formats -/

/-- The format's tag and the length that goes with it. -/
def IsCurrent (bytes : Bytes) : Prop := bytes.length = 80 ∧ bytes.take 8 = identityTag

def IsLegacy (bytes : Bytes) : Prop := bytes.length = 48 ∧ bytes.take 8 = legacyIdentityTag

/-- The generation of a key file. -/
def generationOf (bytes : Bytes) : UInt64 := fromBeBytes ((bytes.drop 8).take 8)

/-- A legacy file of the length of a current one. -/
def LegacyWithTrailing (bytes : Bytes) : Prop :=
  bytes.length = 80 ∧ bytes.take 8 = legacyIdentityTag ∧ generationOf bytes ≠ 0

theorem asKey_eq {bytes : Bytes} (h : bytes.length = 32) : asKey bytes = some ⟨bytes, h⟩ :=
  dif_pos h

theorem decodeIdentity_current {bytes : Bytes} (h : IsCurrent bytes)
    (hg : generationOf bytes ≠ 0) : ∃ file encryption, decodeIdentity bytes = .ok file ∧
      file.encryptionKey = some encryption ∧ file.generation = generationOf bytes ∧
      file.signingKey.bytes = (bytes.drop 16).take 32 ∧ encryption.bytes = bytes.drop 48 := by
  obtain ⟨hlen, htag⟩ := h
  have hs : ((bytes.drop 16).take 32).length = 32 := by
    rw [List.length_take, List.length_drop, hlen]
    rfl
  have he : (bytes.drop 48).length = 32 := by rw [List.length_drop, hlen]
  refine ⟨⟨⟨_, hs⟩, some ⟨_, he⟩, generationOf bytes⟩, ⟨_, he⟩, ?_, rfl, rfl, rfl, rfl⟩
  rw [generationOf] at hg ⊢
  simp [decodeIdentity, hlen, htag, hg, asKey_eq hs, asKey_eq he]

theorem legacyIdentityTag_ne : legacyIdentityTag ≠ identityTag := by decide

/-- A file with the legacy tag, of either length, is read as far as its first key. -/
theorem decodeIdentity_legacy {bytes : Bytes} (hlen : bytes.length = 80 ∨ bytes.length = 48)
    (htag : bytes.take 8 = legacyIdentityTag) (hg : generationOf bytes ≠ 0) :
    ∃ file, decodeIdentity bytes = .ok file ∧ file.encryptionKey = none ∧
      file.generation = generationOf bytes ∧
      file.signingKey.bytes = (bytes.drop 16).take 32 := by
  have hs : ((bytes.drop 16).take 32).length = 32 := by
    rw [List.length_take, List.length_drop]
    omega
  refine ⟨⟨⟨_, hs⟩, none, generationOf bytes⟩, ?_, rfl, rfl, rfl⟩
  rw [generationOf] at hg ⊢
  have hn : ¬ (bytes.length ≠ 8 + 8 + 32 + 32 ∧ bytes.length ≠ 8 + 8 + 32) := by omega
  rw [decodeIdentity, if_neg hn]
  simp [htag, hg, asKey_eq hs, legacyIdentityTag_ne]

/-- What has been checked of a file that is accepted. -/
theorem decodeIdentity_ok {bytes : Bytes} {file : IdentityFile}
    (h : decodeIdentity bytes = .ok file) :
    generationOf bytes ≠ 0 ∧
      (IsCurrent bytes ∨ IsLegacy bytes ∨ LegacyWithTrailing bytes) := by
  unfold decodeIdentity at h
  obtain ⟨hlen, h⟩ := ite_error_ok.mp h
  dsimp only at h
  obtain ⟨htag, h⟩ := ite_error_ok.mp h
  obtain ⟨hg, h⟩ := ite_error_ok.mp h
  refine ⟨hg, ?_⟩
  have hlen : bytes.length = 80 ∨ bytes.length = 48 := by omega
  split at h
  · cases h
  · split at h
    · rename_i hcurrent
      split at h
      · cases h
      · rename_i he
        refine .inl ⟨?_, hcurrent⟩
        rcases hlen with hlen | hlen
        · exact hlen
        · rw [asKey, dif_neg] at he
          · cases he
          · rw [List.length_drop]
            omega
    · rename_i hcurrent
      have htag : bytes.take 8 = legacyIdentityTag := by
        by_contra hn
        exact htag ⟨hcurrent, hn⟩
      rcases hlen with hlen | hlen
      · exact .inr (.inr ⟨hlen, htag, hg⟩)
      · exact .inr (.inl ⟨hlen, htag⟩)

/-! ## Exactness -/

/-- A byte string that is accepted exactly where it is of one of the formats and has a generation,
and, if it is current, is what its identity is written as. -/
structure CodecExact (bytes : Bytes) : Prop where
  accepted : (∃ file, decodeIdentity bytes = .ok file) ↔
    (IsCurrent bytes ∨ IsLegacy bytes) ∧ generationOf bytes ≠ 0
  again : ∀ file, decodeIdentity bytes = .ok file → IsCurrent bytes → ∀ i : DeviceIdentity,
    i.signingKey = file.signingKey → some i.encryptionKey = file.encryptionKey →
    i.generation = file.generation → encodeIdentity i = bytes

theorem encodeIdentity_of_current {bytes : Bytes} {file : IdentityFile} (h : IsCurrent bytes)
    (hd : decodeIdentity bytes = .ok file) {i : DeviceIdentity}
    (hs : i.signingKey = file.signingKey) (he : some i.encryptionKey = file.encryptionKey)
    (hg : i.generation = file.generation) : encodeIdentity i = bytes := by
  obtain ⟨file', encryption, hd', he', hg', hs', hbytes⟩ :=
    decodeIdentity_current h (decodeIdentity_ok hd).1
  rw [hd] at hd'
  cases hd'
  rw [he'] at he
  cases he
  have hlen : ((bytes.drop 8).take 8).length = 8 := by
    rw [List.length_take, List.length_drop, h.1]
    rfl
  rw [encodeIdentity, hs, hg, hg', hs', hbytes, generationOf, toBeBytes_fromBeBytes hlen, ← h.2]
  have h48 := List.take_append_drop 32 (bytes.drop 16)
  have h16 := List.take_append_drop 8 (bytes.drop 8)
  rw [List.drop_drop] at h48 h16
  calc bytes.take 8 ++ ((bytes.drop 8).take 8 ++ ((bytes.drop 16).take 32 ++ bytes.drop 48))
      = bytes.take 8 ++ ((bytes.drop 8).take 8 ++ bytes.drop 16) := by rw [h48]
    _ = bytes.take 8 ++ bytes.drop 8 := by rw [h16]
    _ = bytes := List.take_append_drop 8 bytes

/-- The codec is exact on every identity and on every byte string but a legacy file with trailing
bytes up to the current length. -/
theorem identity_codec_iff (i : DeviceIdentity) (bytes : Bytes) :
    (1 ≤ i.generation →
      decodeIdentity (encodeIdentity i) =
        .ok ⟨i.signingKey, some i.encryptionKey, i.generation⟩) ∧
    (CodecExact bytes ↔ ¬ LegacyWithTrailing bytes) := by
  constructor
  · intro hi
    refine decodeIdentity_encode ?_
    intro h0
    rw [h0] at hi
    exact absurd hi (by decide)
  constructor
  · rintro hexact ⟨hlen, htag, hg⟩
    obtain ⟨file, hfile, -⟩ := decodeIdentity_legacy (.inl hlen) htag hg
    rcases (hexact.accepted.mp ⟨file, hfile⟩).1 with hc | hl
    · exact legacyIdentityTag_ne (htag.symm.trans hc.2)
    · have hl := hl.1
      omega
  · intro hn
    refine ⟨⟨?_, ?_⟩, fun file hd hc j hs he hg => encodeIdentity_of_current hc hd hs he hg⟩
    · rintro ⟨file, hfile⟩
      obtain ⟨hg, hformat⟩ := decodeIdentity_ok hfile
      refine ⟨?_, hg⟩
      rcases hformat with hc | hl | ht
      · exact .inl hc
      · exact .inr hl
      · exact absurd ht hn
    · rintro ⟨hc | hl, hg⟩
      · obtain ⟨file, _, hfile, -⟩ := decodeIdentity_current hc hg
        exact ⟨file, hfile⟩
      · obtain ⟨file, hfile, -⟩ := decodeIdentity_legacy (.inr hl.1) hl.2 hg
        exact ⟨file, hfile⟩

/-- The bytes of a current file under the legacy tag. -/
def trailingFile : Bytes :=
  legacyIdentityTag ++ (toBeBytes 1 ++ (List.replicate 32 0 ++ List.replicate 32 7))

/-- An identity whose keys have been rotated before. -/
def storedIdentity : DeviceIdentity :=
  ⟨"device-1", ⟨List.replicate 32 3, List.length_replicate⟩,
    ⟨List.replicate 32 5, List.length_replicate⟩, 300, COMMUNITY_PROFILE_ID,
    SUPPORTED_CREDENTIAL_PROFILE, false⟩

theorem identity_codec_stored :
    decodeIdentity (encodeIdentity storedIdentity) = .ok ⟨storedIdentity.signingKey,
      some storedIdentity.encryptionKey, storedIdentity.generation⟩ ∧
    CodecExact (encodeIdentity storedIdentity) ∧ CodecExact (trailingFile.take 48) ∧
    ¬ CodecExact trailingFile := by
  refine ⟨(identity_codec_iff storedIdentity []).1 (by decide),
    (identity_codec_iff storedIdentity _).2.mpr ?_, (identity_codec_iff storedIdentity _).2.mpr ?_,
    fun h => (identity_codec_iff storedIdentity _).2.mp h ⟨by decide, by decide, by decide⟩⟩
  · rintro ⟨-, htag, -⟩
    revert htag
    decide
  · rintro ⟨hlen, -⟩
    revert hlen
    decide

/-- The trailing bytes are accepted, and are not written again. -/
theorem trailing_accepted : ¬ IsCurrent trailingFile ∧ ¬ IsLegacy trailingFile ∧
    ∃ file, decodeIdentity trailingFile = .ok file ∧ file.encryptionKey = none := by
  have hlen : trailingFile.length = 80 := by decide
  have htag : trailingFile.take 8 = legacyIdentityTag := by decide
  refine ⟨?_, ?_, ?_⟩
  · rintro ⟨-, hc⟩
    exact legacyIdentityTag_ne (htag.symm.trans hc)
  · rintro ⟨hl, -⟩
    omega
  · obtain ⟨file, hfile, hnone, -⟩ := decodeIdentity_legacy (.inl hlen) htag (by decide)
    exact ⟨file, hfile, hnone⟩

end Device
end EgoBridge
