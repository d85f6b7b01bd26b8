import EgoBridge.Device.Issued

/-!
# Device.Answers

What a server answers to a registration, and an installed release to run the commands on.

* `registrationReply_accepted` — the reply that repeats a registration is accepted with every
  credential that is.
* `releaseAnswers`             — an installed release, with a bundle of its own.
-/

namespace EgoBridge
namespace Device

open Protocol Json Crash

section

variable (P : Platform)

/-- What the server says of a device it registers, with the credential it issues. -/
def replyData (r : Registration) (serverUrl : String) (issued : Json) : Json :=
  .obj ([("device_id", .str r.identity.deviceId),
    ("signing_public_key", .str (r.identity.publicKeyB64 P)),
    ("encryption_public_key", .str (r.identity.encryptionPublicKeyB64 P)),
    ("device_generation", ofU64 r.identity.generation), ("status", .str "active"),
    ("release_profile", .str r.identity.releaseProfile),
    ("credential_profile", .str r.identity.credentialProfile),
    ("signer_certificate_sha256", .str r.signerCertificateSha256),
    ("server_origin", .str serverUrl), ("credential", issued)] ++
    ("capabilities" :: policyFields).filterMap fun field =>
      (get (registrationPayload P r) field).map (field, ·))

def registrationReply (r : Registration) (serverUrl : String) (issued : Json) : Json :=
  .obj [("data", replyData P r serverUrl issued)]

theorem stringArray_strs (texts : List String) : stringArray (strs texts) = some texts := by
  rw [strs, stringArray]
  induction texts with
  | nil => rfl
  | cons text texts ih => rw [List.map_cons, List.mapM_cons, ih]; rfl

/-- The identity and the policy are those of the registration. -/
theorem replyData_exact (r : Registration) (serverUrl : String) (issued : Json) :
    exactIdentity P (replyData P r serverUrl issued) (registrationPayload P r) serverUrl r.identity
      r.signerCertificateSha256 r.identity.deviceId (r.identity.publicKeyB64 P)
      r.identity.generation = true := by
  have hpolicy : ∀ field ∈ policyFields,
      get (replyData P r serverUrl issued) field = get (registrationPayload P r) field ∧
        (get (registrationPayload P r) field).isSome := by
    simp only [policyFields, List.forall_mem_cons]
    exact ⟨⟨rfl, rfl⟩, ⟨rfl, rfl⟩, ⟨rfl, rfl⟩, ⟨rfl, rfl⟩, ⟨rfl, rfl⟩, ⟨rfl, rfl⟩, ⟨rfl, rfl⟩,
      ⟨rfl, rfl⟩, ⟨rfl, rfl⟩, ⟨rfl, rfl⟩, ⟨rfl, rfl⟩, fun _ h => absurd h List.not_mem_nil⟩
  have hfields : policyFields.all (fun field =>
      (get (replyData P r serverUrl issued) field).isSome &&
        (get (registrationPayload P r) field).isSome &&
        get (replyData P r serverUrl issued) field = get (registrationPayload P r) field) = true := by
    rw [List.all_eq_true]
    intro field hf
    simp [hpolicy field hf]
  have hcapabilities : get (replyData P r serverUrl issued) "capabilities" =
      some (strs r.policy.capabilities) := rfl
  have hsubmitted : get (registrationPayload P r) "capabilities" =
      some (strs r.policy.capabilities) := rfl
  have hmatches : registrationPolicyMatches (replyData P r serverUrl issued)
      (registrationPayload P r) = true := by
    rw [registrationPolicyMatches, hfields, hcapabilities, hsubmitted, Bool.true_and]
    exact stringArrayMembersMatch_self (stringArray_strs _)
  have hstatus : get (replyData P r serverUrl issued) "status" = some (.str "active") := rfl
  have hid : get (replyData P r serverUrl issued) "id" = none := rfl
  have hg : get (replyData P r serverUrl issued) "generation" = none := rfl
  have hk : get (replyData P r serverUrl issued) "public_key" = none := rfl
  have he : get (replyData P r serverUrl issued) "encryption_public_key" =
    some (.str (r.identity.encryptionPublicKeyB64 P)) := rfl
  have hr : get (replyData P r serverUrl issued) "release_profile" =
    some (.str r.identity.releaseProfile) := rfl
  have hp : get (replyData P r serverUrl issued) "credential_profile" =
    some (.str r.identity.credentialProfile) := rfl
  have hs : get (replyData P r serverUrl issued) "signer_certificate_sha256" =
    some (.str r.signerCertificateSha256) := rfl
  have ho : get (replyData P r serverUrl issued) "server_origin" = some (.str serverUrl) := rfl
  simp [exactIdentity, hmatches, hstatus, hid, hg, hk, he, hr, hp, hs, ho, asStr]

/-- Of the reply to a registration the credential is all that is left to be checked. -/
theorem registrationReply_accepted (r : Registration) (serverUrl : String)
    (members : List (String × Json)) (previous : Option UInt64) (nowUnix : UInt64) :
    credentialFromRegistrationResponseStrict P (registrationReply P r serverUrl (.obj members))
      serverUrl r.identity r.signerCertificateSha256 (registrationPayload P r) previous nowUnix =
    credentialFromIssued P (.obj members) serverUrl r.identity previous nowUnix := by
  have hdata : (get (registrationReply P r serverUrl (.obj members)) "data").bind asObject =
      some (replyData P r serverUrl (.obj members)) := rfl
  have hid : get (replyData P r serverUrl (.obj members)) "device_id" =
      some (.str r.identity.deviceId) := rfl
  have hkey : get (replyData P r serverUrl (.obj members)) "signing_public_key" =
      some (.str (r.identity.publicKeyB64 P)) := rfl
  have hg : get (replyData P r serverUrl (.obj members)) "device_generation" =
      some (ofU64 r.identity.generation) := rfl
  have hissued : (get (replyData P r serverUrl (.obj members)) "credential").bind asObject =
      some (.obj members) := rfl
  simp [credentialFromRegistrationResponseStrict, present, bind, Except.bind, hdata, hid, hkey,
    hg, hissued, replyData_exact, asStr]
end

/-! ## An installed release -/

/-- No request and no pending record has the operation key. -/
def keyUnused (w : World) (key : String) : Bool :=
  w.log.all (fun e =>
    match e.event with
    | .sent q _ => q.idempotencyKey ≠ some key
    | _ => true) &&
  w.store.pendingRegistration.all (fun p => p.idempotencyKey ≠ key) &&
  w.store.pendingRotation.all (fun p => p.idempotencyKey ≠ key)

/-- Release 2.0.0 is installed with its bundle, every file operation goes through, the clock is at
one, the server answers every request, and an operation key is drawn once. -/
def releaseAnswers (reply : Request → Json) (w : World) : (q : Query) → Option q.Answer
  | .now => some (1 : UInt64)
  | .deviceId => some ("device-1" : String)
  | .signingKey | .encryptionKey => some sampleKey
  | .idempotencyKey =>
    if keyUnused w (encodeB64url sampleKey.bytes) then some sampleKey else none
  | .registrationLock | .policyLock => some (none : Option LockFault)
  | .write => some WriteOutcome.written
  | .remove | .checkFiles => some (none : Option FileFault)
  | .env _ | .stdin => some (none : Option String)
  | .runtimes => some ["2.0.0"]
  | .allowlist _ => some (none : Option (List String × String))
  | .learningBundle root =>
    some (if root = "/opt/releases/2.0.0/learning-bundle" then
      some (⟨"digest-2", "2", "2.0.0", "2.0.0"⟩ : VerifiedLearningBundle)
    else some ⟨"digest-1", "1", "1.0.0", "1.0.0"⟩)
  | .canonicalize path => some (some path)
  | .releaseArtifact _ => some (none : Option ReleaseManifestEvidence)
  | .installedPin =>
    some (some (some TRUSTED_COMMUNITY_SIGNER_CERTIFICATE_SHA256) : Option (Option String))
  | .signedBinary => some (some none : Option (Option String))
  | .currentExe => some (some "/opt/releases/2.0.0/bin/ego-browser" : Option String)
  | .post request => some (Exchange.answered ⟨200, some (serverReply reply request)⟩)

section

variable {P : Platform} {reply : Request → Json}

theorem eval_save {c : CommunityCredential} (hv : validCommunityCredential P c none = true)
    (hs : c.toJson.size ≤ MAX_CREDENTIAL_BYTES) (w : World) :
    (save P c).eval (releaseAnswers reply) w =
      some ((), (w.logged (.saved c)).stored { w.store with credential := some c }) := by
  rw [save, if_neg (not_not.mpr hv), if_neg (not_lt.mpr hs)]
  rfl

end

end Device
end EgoBridge
