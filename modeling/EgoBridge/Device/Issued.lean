import EgoBridge.Device.Served
import EgoBridge.Json.Numbers

/-!
# Device.Issued

What a registration answer has to be for its credential to be stored and read back.

* `AliasSafe`     — no field is there under two names with two values.
* `StoredBack`    — the store saves the credential and loads it again, and a rotation's commit goes
  through with it.
* `accepted_iff`  — when an accepted answer is both.
-/

namespace EgoBridge
namespace Device

open Protocol Json Crash

variable (P : Platform)

/-! ## Two names -/

/-- Where both names are there, they have the same value. -/
def Agree (v : Json) (name other : String) : Prop :=
  ∀ a b, get v name = some a → get v other = some b → a = b

structure DeviceAliases (data : Json) : Prop where
  deviceId : Agree data "device_id" "id"
  generation : Agree data "device_generation" "generation"
  publicKey : Agree data "signing_public_key" "public_key"

structure CredentialAliases (issued : Json) : Prop where
  generation : Agree issued "device_generation" "generation"
  revision : Agree issued "credential_revision" "revision"
  expiresAt : Agree issued "credential_expires_at" "expires_at"

def AliasSafe (response : Json) : Prop :=
  ∀ data, get response "data" = some data → DeviceAliases data ∧
    ∀ issued, get data "credential" = some issued → CredentialAliases issued

/-! ## Storing -/

/-- An identity and an origin that a credential can be stored for. -/
structure StoreValid (serverUrl : String) (identity : DeviceIdentity) : Prop where
  deviceId : isApiId identity.deviceId = true
  releaseProfile : isReleaseProfile identity.releaseProfile = true
  credentialProfile : identity.credentialProfile = "community_file"
  serverUrl : canonicalServerUrl P serverUrl = .ok serverUrl

/-- Where no file operation fails, the credential is saved and loaded again at `nowUnix`, and the
rotation to an identity whose key has been prepared is committed. -/
structure StoredBack (identity : DeviceIdentity) (c : CommunityCredential) (nowUnix : UInt64) :
    Prop where
  saved : ∀ E w, Faultless E → Works E (save P c) (fun _ w' => w'.store.load P nowUnix = .ok c) w
  committed : ∀ E w bytes, Faultless E → w.store.pendingKeyRotation = some bytes →
    decodeIdentity bytes =
      .ok ⟨identity.signingKey, some identity.encryptionKey, identity.generation⟩ →
    Works E (commitIdentityRotation P identity c)
      (fun _ w' => w'.store.load P nowUnix = .ok c) w

/-- The check of a stored token. -/
def isToken (token : String) : Bool :=
  !token.isEmpty && (utf8 token).length ≤ TOKEN_MAX_BYTES &&
    (utf8 "egbc_").isPrefixOf (utf8 token) && (utf8 token).all isTokenByte

/-- What the credential of an answer is made of. -/
structure IssuedFields where
  token : String
  id : String
  revision : UInt64
  expiresAt : Int

def IssuedFields.Of (f : IssuedFields) (issued : Json) : Prop :=
  (get issued "access_token").bind asStr = some f.token ∧
  (get issued "id").bind asStr = some f.id ∧
  (get issued "credential_revision").bind asU64 = some f.revision ∧
  ((get issued "credential_expires_at").bind asStr).bind P.parseRfc3339 = some f.expiresAt

def IssuedFields.credential (f : IssuedFields) (serverUrl : String) (identity : DeviceIdentity) :
    CommunityCredential :=
  ⟨1, identity.deviceId, serverUrl, f.token, some f.id, identity.releaseProfile,
    identity.credentialProfile, UInt64.ofInt f.expiresAt, f.revision⟩

/-- The answer's second expiry is a text if there is one, its token is one that can be stored, and
the stored text is not too long. -/
structure Keepable (serverUrl : String) (identity : DeviceIdentity) (issued : Json) : Prop where
  expiresAt : ∀ v, get issued "expires_at" = some v → ∃ text, v = .str text
  token : ∀ f : IssuedFields, f.Of P issued → isToken f.token = true
  size : ∀ f : IssuedFields, f.Of P issued →
    (f.credential serverUrl identity).toJson.size ≤ MAX_CREDENTIAL_BYTES

/-! ## Accepted answers -/

variable {P}

theorem asStr_some {v : Json} {s : String} (h : asStr v = some s) : v = .str s := by
  cases v with
  | str t =>
    cases h
    rfl
  | _ => cases h

/-- Values of which both names read as the same text are the same. -/
theorem agree_of_asStr {v : Json} {name other : String} {s : String}
    (h : (get v name).bind asStr = some s)
    (ho : (get v other).all (fun v => asStr v = some s) = true) : Agree v name other := by
  intro a b ha hb
  rw [ha, Option.bind_some] at h
  rw [hb, Option.all_some, decide_eq_true_eq] at ho
  rw [asStr_some h, asStr_some ho]

theorem agree_of_asU64 {v : Json} {name other : String} {n : UInt64}
    (h : (get v name).bind asU64 = some n)
    (ho : (get v other).all (fun v => asU64 v = some n) = true) : Agree v name other := by
  intro a b ha hb
  rw [ha, Option.bind_some] at h
  rw [hb, Option.all_some, decide_eq_true_eq] at ho
  rw [asU64_eq_some h, asU64_eq_some ho]

theorem get_of_asObject {v data : Json} {name : String}
    (h : (get v name).bind asObject = some data) : get v name = some data := by
  obtain ⟨a, ha, hd⟩ := Option.bind_eq_some_iff.mp h
  cases a with
  | obj ms =>
    cases hd
    exact ha
  | _ => cases hd

theorem IssuedFields.unique {issued : Json} {f g : IssuedFields} (hf : f.Of P issued)
    (hg : g.Of P issued) : f = g := by
  obtain ⟨ht, hi, hr, he⟩ := hf
  obtain ⟨ht', hi', hr', he'⟩ := hg
  cases f
  cases g
  simp only at ht hi hr he ht' hi' hr' he'
  rw [ht] at ht'
  rw [hi] at hi'
  rw [hr] at hr'
  rw [he] at he'
  cases ht'
  cases hi'
  cases hr'
  cases he'
  rfl

theorem parseCredentialExpiry_ok {issued : Json} {expiresIn nowUnix expires : UInt64}
    (h : parseCredentialExpiry P issued expiresIn nowUnix = .ok expires) :
    ∃ text timestamp, (get issued "credential_expires_at").bind asStr = some text ∧
      P.parseRfc3339 text = some timestamp ∧ expires = UInt64.ofInt timestamp ∧
      nowUnix < expires ∧ ∀ other, (get issued "expires_at").bind asStr = some other →
        other = text := by
  unfold parseCredentialExpiry at h
  split at h
  · cases h
  · rename_i text htext
    obtain ⟨hother, h⟩ := ite_error_ok.mp h
    split at h
    · cases h
    · rename_i timestamp ht
      obtain ⟨-, h⟩ := ite_error_ok.mp h
      obtain ⟨hnow, h⟩ := ite_error_ok.mp h
      obtain ⟨-, h⟩ := ite_error_ok.mp h
      cases h
      refine ⟨text, timestamp, htext, ht, rfl, UInt64.not_le.mp hnow, ?_⟩
      intro other ho
      by_contra hne
      exact hother (by simp [ho, hne])

/-- What an accepted credential is, and what has been checked of it. -/
theorem credentialFromIssued_fields {issued : Json} {serverUrl : String}
    {identity : DeviceIdentity} {previous : Option UInt64} {nowUnix : UInt64}
    {c : CommunityCredential}
    (h : credentialFromIssued P issued serverUrl identity previous nowUnix = .ok c) :
    ∃ f : IssuedFields, f.Of P issued ∧ c = f.credential serverUrl identity ∧ f.revision ≠ 0 ∧
      nowUnix < UInt64.ofInt f.expiresAt ∧ issuedMatches issued identity f.revision = true ∧
      ∀ other, (get issued "expires_at").bind asStr = some other →
        (get issued "credential_expires_at").bind asStr = some other := by
  obtain ⟨revision, hrevision, h⟩ := bind_ok h
  obtain ⟨hr, h⟩ := ite_error_ok.mp h
  obtain ⟨hm, h⟩ := ite_error_ok.mp h
  obtain ⟨expiresIn, -, h⟩ := bind_ok h
  obtain ⟨expires, hexpires, h⟩ := bind_ok h
  obtain ⟨token, htoken, h⟩ := bind_ok h
  obtain ⟨id, hid, h⟩ := bind_ok h
  cases h
  obtain ⟨text, timestamp, htext, ht, rfl, hnow, hother⟩ := parseCredentialExpiry_ok hexpires
  refine ⟨⟨token, id, revision, timestamp⟩, ⟨present_ok.mp htoken, present_ok.mp hid,
    present_ok.mp hrevision, ?_⟩, rfl, (not_or.mp hr).1, hnow, not_not.mp hm, ?_⟩
  · rw [htext, Option.bind_some, ht]
  · intro other ho
    rw [htext, hother other ho]

/-- What an accepted answer is. -/
theorem credentialFromRegistrationResponseStrict_fields {response submitted : Json}
    {serverUrl signer : String} {identity : DeviceIdentity} {previous : Option UInt64}
    {nowUnix : UInt64} {c : CommunityCredential}
    (h : credentialFromRegistrationResponseStrict P response serverUrl identity signer submitted
      previous nowUnix = .ok c) :
    ∃ data issued, get response "data" = some data ∧ get data "credential" = some issued ∧
      DeviceAliases data ∧
      credentialFromIssued P issued serverUrl identity previous nowUnix = .ok c := by
  obtain ⟨data, hdata, h⟩ := bind_ok h
  obtain ⟨deviceId, hid, h⟩ := bind_ok h
  obtain ⟨publicKey, hkey, h⟩ := bind_ok h
  obtain ⟨generation, hg, h⟩ := bind_ok h
  obtain ⟨he, h⟩ := ite_error_ok.mp h
  obtain ⟨issued, hissued, hc⟩ := bind_ok h
  rw [not_not] at he
  simp only [exactIdentity, Bool.and_eq_true, decide_eq_true_eq] at he
  obtain ⟨⟨⟨⟨⟨⟨⟨⟨⟨⟨⟨⟨hid', hg'⟩, -⟩, hkey'⟩, ha⟩, hag⟩, hak⟩, -⟩, -⟩, -⟩, -⟩, -⟩, -⟩ := he
  subst hid' hg' hkey'
  exact ⟨data, issued, get_of_asObject (present_ok.mp hdata),
    get_of_asObject (present_ok.mp hissued),
    ⟨agree_of_asStr (present_ok.mp hid) ha, agree_of_asU64 (present_ok.mp hg) hag,
      agree_of_asStr (present_ok.mp hkey) hak⟩, hc⟩

/-! ## The store -/

section

variable {E : Surroundings} {w : World} {c : CommunityCredential} {identity : DeviceIdentity}

theorem load_of_valid {s : Store} {nowUnix : UInt64} (hc : s.credential = some c)
    (hs : c.toJson.size ≤ MAX_CREDENTIAL_BYTES)
    (hv : validCommunityCredential P c (some nowUnix) = true) : s.load P nowUnix = .ok c := by
  rw [Store.load, Store.loadCredential, hc,
    ownerFile_some (f := fun c : CommunityCredential => c.toJson.size) hs]
  simp only [hv, not_true_eq_false, ↓reduceIte]

theorem works_save (hE : Faultless E) {R : Unit → World → Prop}
    (hv : validCommunityCredential P c none = true) (hs : c.toJson.size ≤ MAX_CREDENTIAL_BYTES)
    (h : R () ((w.logged (.saved c)).stored { w.store with credential := some c })) :
    Works E (save P c) R w := by
  simp only [Works, save, Cmd.wp_bind, Cmd.wp_ite, wp_fail]
  exact ⟨fun hn => hn hv, fun _ => ⟨fun hn => absurd hs (Nat.not_le.mpr hn),
    fun _ => works_write hE h⟩⟩

theorem valid_of_works_save {R : Unit → World → Prop} (h : Works E (save P c) R w) :
    validCommunityCredential P c none = true ∧ c.toJson.size ≤ MAX_CREDENTIAL_BYTES := by
  simp only [Works, save, Cmd.wp_bind, Cmd.wp_ite, wp_fail] at h
  obtain ⟨hv, h⟩ := h
  have hv := not_not.mp hv
  exact ⟨hv, Nat.not_lt.mp (h (not_not.mpr hv)).1⟩

theorem works_saveIdentityMetadata (hE : Faultless E) {serverUrl : String}
    {R : Unit → World → Prop} (hi : StoreValid P serverUrl identity)
    (h : ∀ m, R () (w.stored { w.store with identityMetadata := some m })) :
    Works E (saveIdentityMetadata P identity serverUrl) R w := by
  have hv : validStoredIdentityMetadata P ⟨1, identity.deviceId, serverUrl,
      identity.releaseProfile, identity.credentialProfile⟩ = true := by
    simp [validStoredIdentityMetadata, hi.deviceId, hi.releaseProfile, hi.credentialProfile,
      hi.serverUrl]
  simp only [Works, saveIdentityMetadata, hi.serverUrl, Cmd.wp_bind]
  refine wp_lift_ok rfl ?_
  rw [Cmd.wp_ite]
  exact ⟨fun hn => absurd hv hn, fun _ => works_write hE (h _)⟩

/-- A rotation whose key is prepared is committed with a credential of its identity that can be
stored. -/
theorem works_commitIdentityRotation (hE : Faultless E) {bytes : Bytes}
    {R : Unit → World → Prop} (hi : StoreValid P c.serverUrl identity)
    (hb : w.store.pendingKeyRotation = some bytes)
    (hd : decodeIdentity bytes =
      .ok ⟨identity.signingKey, some identity.encryptionKey, identity.generation⟩)
    (hid : c.deviceId = identity.deviceId)
    (hp : c.credentialProfile = identity.credentialProfile)
    (hv : validCommunityCredential P c none = true) (hs : c.toJson.size ≤ MAX_CREDENTIAL_BYTES)
    (h : ∀ w', w'.store.credential = some c → R () w') :
    Works E (commitIdentityRotation P identity c) R w := by
  let pending : DeviceIdentity := { identity with legacyEncryptionKey := false }
  rw [Works, commitIdentityRotation, Cmd.wp_bind, loadPendingIdentityRotation, probe_bind,
    Cmd.wp_bind, wp_theStore, hb]
  simp only [probe_bind, Cmd.wp_bind, probe_pure, Cmd.wp_pure]
  refine @wp_loadIdentityFile _ _ _ _ bytes pending _ hd rfl ?_
  rw [Cmd.wp_ite]
  refine ⟨?_, fun _ => ?_⟩
  · rintro (hn | hn | hn | hn | hn)
    · exact absurd rfl hn
    · exact absurd rfl hn
    · exact absurd rfl hn
    · exact absurd hid hn
    · exact absurd hp hn
  rw [Cmd.wp_bind]
  refine works_write hE ?_
  rw [Cmd.wp_bind]
  refine works_saveIdentityMetadata hE hi fun m => ?_
  rw [Cmd.wp_bind]
  refine works_save hE hv hs ?_
  rw [Cmd.wp_bind]
  refine works_remove hE ?_
  rw [Cmd.wp_bind]
  refine works_remove hE ?_
  exact works_remove hE (h _ rfl)

end

/-! ## One answer -/

def sampleSubmitted : Json :=
  .obj (("capabilities", strs CORE_CAPABILITIES) :: policyFields.map fun field => (field, .str "1"))

/-- A credential for the sample device, with its token and what else there is of it. -/
def sampleIssued (token : String) (more : List (String × Json)) : Json :=
  .obj ([("ego_browser_device_id", .str "device-1"), ("access_token", .str token),
    ("id", .str "credential-1"), ("credential_profile", .str SUPPORTED_CREDENTIAL_PROFILE),
    ("device_generation", ofU64 1), ("credential_revision", ofU64 1), ("token_type", .str "bearer"),
    ("credential_scope", .str "device"), ("expires_in", ofU64 4000),
    ("credential_expires_at", .str "1970-01-01T01:23:20Z")] ++ more)

/-- The answer to `sampleSubmitted` that issues a credential. -/
def sampleData (issued : Json) : Json :=
  .obj ([("device_id", .str "device-1"),
    ("signing_public_key", .str (sampleIdentity.publicKeyB64 samplePlatform)),
    ("encryption_public_key", .str (sampleIdentity.encryptionPublicKeyB64 samplePlatform)),
    ("device_generation", ofU64 1), ("status", .str "active"),
    ("release_profile", .str COMMUNITY_PROFILE_ID),
    ("credential_profile", .str SUPPORTED_CREDENTIAL_PROFILE),
    ("signer_certificate_sha256", .str TRUSTED_COMMUNITY_SIGNER_CERTIFICATE_SHA256),
    ("server_origin", .str sampleOrigin), ("capabilities", strs CORE_CAPABILITIES),
    ("credential", issued)] ++ policyFields.map fun field => (field, .str "1"))

def sampleResponse (issued : Json) : Json := .obj [("data", sampleData issued)]

def sampleAccept (issued : Json) : Except Failure CommunityCredential :=
  credentialFromRegistrationResponseStrict samplePlatform (sampleResponse issued) sampleOrigin
    sampleIdentity TRUSTED_COMMUNITY_SIGNER_CERTIFICATE_SHA256 sampleSubmitted none 1000

theorem storeValid_sample : StoreValid samplePlatform sampleOrigin sampleIdentity where
  deviceId := rfl
  releaseProfile := rfl
  credentialProfile := by decide
  serverUrl := rfl

theorem ok_of_toOption {ε α : Type} {x : Except ε α} {a : α} (h : x.toOption = some a) :
    x = .ok a := by
  cases x with
  | error e => cases h
  | ok b =>
    cases h
    rfl

theorem stringArrayMembersMatch_self {v : Option Json} {texts : List String}
    (h : v.bind stringArray = some texts) : stringArrayMembersMatch v v = true := by
  simp [stringArrayMembersMatch, h]

/-- The credential is all that is left of the sample answers to be checked. -/
theorem sampleAccept_eq (members : List (String × Json)) :
    sampleAccept (.obj members) =
      credentialFromIssued samplePlatform (.obj members) sampleOrigin sampleIdentity none 1000 := by
  have hdata : (get (sampleResponse (.obj members)) "data").bind asObject =
      some (sampleData (.obj members)) := rfl
  have hid : (get (sampleData (.obj members)) "device_id").bind asStr = some "device-1" := rfl
  have hkey : (get (sampleData (.obj members)) "signing_public_key").bind asStr =
      some (sampleIdentity.publicKeyB64 samplePlatform) := rfl
  have hg : (get (sampleData (.obj members)) "device_generation").bind asU64 = some 1 := rfl
  have hissued : (get (sampleData (.obj members)) "credential").bind asObject =
      some (.obj members) := rfl
  have hexact : exactIdentity samplePlatform (sampleData (.obj members)) sampleSubmitted
      sampleOrigin sampleIdentity TRUSTED_COMMUNITY_SIGNER_CERTIFICATE_SHA256 "device-1"
      (sampleIdentity.publicKeyB64 samplePlatform) 1 = true := by
    have hc : get (sampleData (.obj members)) "capabilities" =
        get sampleSubmitted "capabilities" := rfl
    rw [exactIdentity, registrationPolicyMatches, hc,
      stringArrayMembersMatch_self rfl, Bool.and_true]
    rfl
  simp [sampleAccept, credentialFromRegistrationResponseStrict, present, bind, Except.bind, hdata,
    hid, hkey, hg, hissued, hexact]

theorem accept_sample : sampleAccept (sampleIssued "egbc_token" []) = .ok sampleCredential :=
  (sampleAccept_eq _).trans (ok_of_toOption rfl)

theorem accept_number : sampleAccept (sampleIssued "egbc_token" [("expires_at", ofU64 1)]) =
    .ok sampleCredential :=
  (sampleAccept_eq _).trans (ok_of_toOption rfl)

theorem accept_token : sampleAccept (sampleIssued "token" []) =
    .ok { sampleCredential with token := "token" } :=
  (sampleAccept_eq _).trans (ok_of_toOption rfl)

set_option maxRecDepth 4000

/-! ## The answers whose credentials are kept -/

theorem valid_credential {serverUrl : String} {identity : DeviceIdentity} {f : IssuedFields}
    {nowUnix : UInt64} (hi : StoreValid P serverUrl identity) (ht : isToken f.token = true)
    (hr : f.revision ≠ 0) (hnow : nowUnix < UInt64.ofInt f.expiresAt) {now : Option UInt64}
    (hle : ∀ t, now = some t → t = nowUnix) :
    validCommunityCredential P (f.credential serverUrl identity) now = true := by
  have hpos : 0 < UInt64.ofInt f.expiresAt :=
    UInt64.lt_of_le_of_lt UInt64.zero_le hnow
  have hrev : 0 < f.revision := UInt64.pos_iff_ne_zero.mpr hr
  have hnow : now.all (fun t => t < UInt64.ofInt f.expiresAt) = true := by
    cases now with
    | none => rfl
    | some t =>
      rw [hle t rfl]
      simpa using hnow
  simp only [isToken, Bool.and_eq_true] at ht
  simp only [validCommunityCredential, IssuedFields.credential, hi.releaseProfile,
    hi.credentialProfile, hi.deviceId, hi.serverUrl, ht, hnow, hpos, hrev, decide_true,
    Bool.and_self]

/-- An accepted answer has no field under two names with two values, and its credential is stored,
exactly where the credential is one that can be kept. -/
theorem accepted_iff {response submitted : Json} {serverUrl signer : String}
    {identity : DeviceIdentity} {previous : Option UInt64} {nowUnix : UInt64}
    {c : CommunityCredential} (hi : StoreValid P serverUrl identity)
    (h : credentialFromRegistrationResponseStrict P response serverUrl identity signer submitted
      previous nowUnix = .ok c) :
    (AliasSafe response ∧ StoredBack P identity c nowUnix) ↔
      ∀ data issued, get response "data" = some data → get data "credential" = some issued →
        Keepable P serverUrl identity issued := by
  obtain ⟨data, issued, hdata, hissued, hda, h⟩ :=
    credentialFromRegistrationResponseStrict_fields h
  obtain ⟨f, hf, rfl, hr, hnow, hm, hother⟩ := credentialFromIssued_fields h
  constructor
  · rintro ⟨halias, hstored⟩ data' issued' hdata' hissued'
    rw [hdata] at hdata'
    cases hdata'
    rw [hissued] at hissued'
    cases hissued'
    obtain ⟨hv, hs⟩ := valid_of_works_save (hstored.saved calm ⟨Store.empty, []⟩ calm_faultless)
    refine ⟨?_, ?_, ?_⟩
    · intro v hv'
      obtain ⟨timestamp, hexp, -⟩ := Option.bind_eq_some_iff.mp hf.2.2.2
      obtain ⟨v', hexp, hs'⟩ := Option.bind_eq_some_iff.mp hexp
      have hsame := ((halias data hdata).2 issued hissued).expiresAt v' v hexp hv'
      exact ⟨_, hsame ▸ asStr_some hs'⟩
    · intro g hg
      rw [IssuedFields.unique hg hf]
      simp only [validCommunityCredential, IssuedFields.credential, Bool.and_eq_true] at hv
      simp only [isToken, Bool.and_eq_true]
      exact ⟨⟨⟨hv.1.1.1.1.1.1.2, hv.1.1.1.1.1.2⟩, hv.1.1.1.1.2⟩, hv.1.1.1.2⟩
    · intro g hg
      rw [IssuedFields.unique hg hf]
      exact hs
  · intro hk
    obtain ⟨he, ht, hs⟩ := hk data issued hdata hissued
    have hs := hs f hf
    have hv : ∀ now : Option UInt64, (∀ t, now = some t → t = nowUnix) →
        validCommunityCredential P (f.credential serverUrl identity) now = true :=
      fun now hle => valid_credential hi (ht f hf) hr hnow hle
    have hnone := hv none (fun t ht => by cases ht)
    have hsome := hv (some nowUnix) (fun t ht => by cases ht; rfl)
    simp only [issuedMatches, Bool.and_eq_true, decide_eq_true_eq] at hm
    obtain ⟨⟨⟨⟨⟨⟨-, -⟩, hgen⟩, hgen'⟩, hrev'⟩, -⟩, -⟩ := hm
    refine ⟨?_, ?_, ?_⟩
    · intro data' hdata'
      rw [hdata] at hdata'
      cases hdata'
      refine ⟨hda, ?_⟩
      intro issued' hissued'
      rw [hissued] at hissued'
      cases hissued'
      refine ⟨agree_of_asU64 hgen hgen', agree_of_asU64 hf.2.2.1 hrev', ?_⟩
      intro a b ha hb
      obtain ⟨text, rfl⟩ := he b hb
      have hsame := hother text (by rw [hb]; rfl)
      rw [ha, Option.bind_some] at hsame
      exact asStr_some hsame
    · intro E w hE
      exact works_save hE hnone hs (load_of_valid rfl hs hsome)
    · intro E w bytes hE hb hd
      exact works_commitIdentityRotation hE hi hb hd rfl rfl hnone hs
        fun w' hw' => load_of_valid hw' hs hsome

theorem accepted_iff_sample :
    AliasSafe (sampleResponse (sampleIssued "egbc_token" [])) ∧
      StoredBack samplePlatform sampleIdentity sampleCredential 1000 := by
  refine (accepted_iff storeValid_sample accept_sample).mpr ?_
  intro data issued hdata hissued
  cases hdata
  cases hissued
  have hfields : (⟨"egbc_token", "credential-1", 1, 5000⟩ : IssuedFields).Of samplePlatform
      (sampleIssued "egbc_token" []) := ⟨rfl, rfl, rfl, rfl⟩
  refine ⟨?_, ?_, ?_⟩
  · intro v hv
    cases hv
  · intro f hf
    rw [IssuedFields.unique hf hfields]
    rfl
  · intro f hf
    rw [IssuedFields.unique hf hfields]
    decide

/-- A number beside the expiry is not looked at, and neither is the token. -/
theorem accepted_unkept :
    (sampleAccept (sampleIssued "egbc_token" [("expires_at", ofU64 1)]) = .ok sampleCredential ∧
      ¬ AliasSafe (sampleResponse (sampleIssued "egbc_token" [("expires_at", ofU64 1)]))) ∧
    (sampleAccept (sampleIssued "token" []) = .ok { sampleCredential with token := "token" } ∧
      ¬ StoredBack samplePlatform sampleIdentity { sampleCredential with token := "token" }
        1000) := by
  refine ⟨⟨accept_number, ?_⟩, accept_token, ?_⟩
  · intro h
    have hsame := ((h _ rfl).2 _ rfl).expiresAt _ _ rfl rfl
    cases hsame
  · intro h
    have hv := valid_of_works_save (h.saved calm ⟨Store.empty, []⟩ calm_faultless)
    revert hv
    decide

end Device
end EgoBridge
