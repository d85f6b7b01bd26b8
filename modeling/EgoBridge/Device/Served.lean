import EgoBridge.Device.Commands

/-!
# Device.Served

Surroundings in which commands come to their end, and a device to run them on.

* `Faultless`, `Works` — no file operation fails; the command does not fail either.
* `calm`, `served`     — surroundings without a server, and with one that answers every request.
* `works_bindingRequest` — a request of a device that has its identity is answered.
-/

namespace EgoBridge
namespace Device

open Protocol Json Crash

section

variable {P : Platform} {E : Surroundings} {w : World}

variable (P) in
/-- The identity of the device can be read from the store. -/
def Loaded (s : Store) (deviceId : String) : Prop :=
  ∃ c, s.loadForRotation P = .ok c ∧ c.deviceId = deviceId ∧ KeyReadable s

theorem loadForRotation_of_load {s : Store} {t : UInt64} {c : CommunityCredential}
    (h : s.load P t = .ok c) : s.loadForRotation P = .ok c := by
  unfold Store.load Store.loadForRotation Store.loadCredential at *
  cases ho : ownerFile (fun c : CommunityCredential => c.toJson.size) s.credential with
  | error e => simp [ho] at h
  | ok c' =>
    simp only [ho] at h ⊢
    obtain ⟨hv, h⟩ := ite_error_ok.mp h
    cases h
    rw [not_not, validCommunityCredential] at hv
    simp only [Bool.and_eq_true] at hv
    refine if_neg (not_not.mpr ?_)
    simp only [validCommunityCredential, Bool.and_eq_true]
    exact ⟨⟨⟨hv.1.1.1, rfl⟩, hv.1.2⟩, hv.2⟩

theorem deviceId_of_loadForRotation {s : Store} {c : CommunityCredential}
    (h : s.loadForRotation P = .ok c) : isApiId c.deviceId = true := by
  unfold Store.loadForRotation Store.loadCredential at h
  split at h
  · cases h
  · obtain ⟨hv, h⟩ := ite_error_ok.mp h
    cases h
    rw [not_not, validCommunityCredential] at hv
    simp only [Bool.and_eq_true] at hv
    exact hv.1.1.1.1.1.1.1.1.2

theorem deviceId_of_loadIdentityMetadata {s : Store} {m : StoredIdentityMetadata}
    (h : s.loadIdentityMetadata P = .ok m) : isApiId m.deviceId = true := by
  unfold Store.loadIdentityMetadata at h
  split at h
  · cases h
  · obtain ⟨hv, h⟩ := ite_error_ok.mp h
    cases h
    rw [not_not, validStoredIdentityMetadata] at hv
    simp only [Bool.and_eq_true] at hv
    exact hv.1.1.1.2

variable (P) in
/-- The reference to the identity is one that a record can hold, whatever the files are. -/
theorem wp_localIdentityReference {I : World → Prop} {F : Failure → World → Prop}
    {R : Option String × Option UInt64 → World → Prop} {w : World} (hI : I w)
    (hR : ∀ id generation, Option.all isApiId id = true → generation ≠ some 0 →
      R (id, generation) w) : Cmd.wp E I F (liftM (localIdentityReference P)) R w := by
  have hnone : R (none, none) w := hR none none rfl (by simp)
  have hsome : ∀ {deviceId} {i : DeviceIdentity}, isApiId deviceId = true →
      i.deviceId = deviceId → i.generation ≠ 0 → R (some i.deviceId, some i.generation) w :=
    fun hv hid hg => hR _ _ (by rw [hid]; exact hv) (by simpa using hg)
  rw [localIdentityReference, probe_bind, Cmd.wp_bind, wp_theStore]
  extract_lets +lift fromMetadata
  have hmetadata : Cmd.wp E I F (liftM fromMetadata) R w := by
    unfold fromMetadata
    cases hm : w.store.loadIdentityMetadata P with
    | error e => exact hnone
    | ok m =>
      dsimp only
      rw [probe_bind, Cmd.wp_bind, probe_attempt, Cmd.wp_attempt]
      refine wp_loadIdentity hI (fun _ _ => hnone) ?_
      intro i hid _ _ hg _
      exact hsome (deviceId_of_loadIdentityMetadata hm) hid hg
  cases hc : w.store.loadForRotation P with
  | error e => exact hmetadata
  | ok credential =>
    rw [probe_bind, Cmd.wp_bind, probe_attempt, Cmd.wp_attempt]
    refine wp_loadIdentity hI (fun _ _ => hmetadata) ?_
    intro i hid _ _ hg _
    exact hsome (deviceId_of_loadForRotation hc) hid hg

/-! ## Surroundings without faults -/

/-- Every file operation goes through, and the server does not answer. -/
def calm : Surroundings := fun _ q a =>
  match q, a with
  | .now, t => t = (1 : UInt64)
  | .write, outcome => outcome = .written
  | .remove, outcome => outcome = none
  | .post _, x => x = .sendFailed
  | _, _ => True

theorem calm_answers (w : World) (q : Query) : ∃ a, calm w q a := by
  cases q with
  | now => exact ⟨(1 : UInt64), rfl⟩
  | write => exact ⟨.written, rfl⟩
  | remove => exact ⟨(none : Option FileFault), rfl⟩
  | post request => exact ⟨Exchange.sendFailed, rfl⟩
  | deviceId => exact ⟨("" : String), trivial⟩
  | signingKey | encryptionKey | idempotencyKey =>
    exact ⟨(⟨List.replicate 32 0, List.length_replicate⟩ : Key), trivial⟩
  | registrationLock | policyLock => exact ⟨(none : Option LockFault), trivial⟩
  | checkFiles => exact ⟨(none : Option FileFault), trivial⟩
  | env name => exact ⟨(none : Option String), trivial⟩
  | stdin => exact ⟨(none : Option String), trivial⟩
  | runtimes => exact ⟨([] : List String), trivial⟩
  | allowlist roots => exact ⟨(none : Option (List String × String)), trivial⟩
  | learningBundle root => exact ⟨(none : Option VerifiedLearningBundle), trivial⟩
  | canonicalize path => exact ⟨(none : Option String), trivial⟩
  | releaseArtifact path => exact ⟨(none : Option ReleaseManifestEvidence), trivial⟩
  | installedPin => exact ⟨(none : Option (Option String)), trivial⟩
  | signedBinary => exact ⟨(none : Option (Option String)), trivial⟩
  | currentExe => exact ⟨(none : Option String), trivial⟩

/-- The command comes to its end, and `R` holds there. -/
abbrev Works {α : Type} (E : Surroundings) (p : Command α) (R : α → World → Prop) (w : World) :
    Prop :=
  Cmd.wp E (fun _ => True) (fun _ _ => False) p R w

/-- Every file operation goes through, and the clock is past its start. -/
structure Faultless (E : Surroundings) : Prop where
  now : ∀ w (t : UInt64), E w .now t → t ≠ 0
  write : ∀ w outcome, E w .write outcome → outcome = .written
  remove : ∀ w outcome, E w .remove outcome → outcome = none

theorem calm_faultless : Faultless calm where
  now _ t h := by
    have ht : t = 1 := h
    rw [ht]
    decide
  write _ _ h := h
  remove _ _ h := h

section

variable (hE : Faultless E)

include hE

theorem works_write {change : World → World} {R : Unit → World → Prop} {w : World}
    (h : R () (change w)) : Works E (atomicOwnerWrite change) R w := by
  refine wp_atomicOwnerWrite trivial ?_ ?_ h
  · intro f hf
    cases hE.write _ _ hf
  · intro f hf
    cases hE.write _ _ hf

theorem works_remove {change : Store → Store} {R : Unit → World → Prop} {w : World}
    (h : R () (w.stored (change w.store))) : Works E (removeOwnerFileIfPresent change) R w := by
  refine wp_remove trivial ?_ h
  intro f hf
  cases hE.remove _ _ hf

theorem works_writeLocalAdmission {r : LocalAdmissionRecord} {R : Unit → World → Prop} {w : World}
    (hr : validLocalAdmissionRecord r = true)
    (h : R () (w.stored { w.store with localAdmission := some r })) :
    Works E (writeLocalAdmission r) R w := by
  simp only [Works, writeLocalAdmission, Cmd.wp_bind, Cmd.wp_ite, wp_fail]
  exact ⟨fun h => h hr, fun _ => works_write hE h⟩

theorem works_closeLocalAdmission {R : Unit → World → Prop} {w : World}
    (h : ∀ r, R () (w.stored { w.store with localAdmission := some r })) :
    Works E (closeLocalAdmission P) R w := by
  rw [Works, closeLocalAdmission, Cmd.wp_bind, localAdmissionRecord, probe_bind, Cmd.wp_bind]
  refine wp_localIdentityReference P trivial fun id generation hid hgeneration => ?_
  rw [probe_bind, Cmd.wp_bind, wp_now]
  refine ⟨trivial, fun (t : UInt64) ht => ?_⟩
  have ht0 := hE.now _ t ht
  rw [probe_pure, Cmd.wp_pure]
  refine works_writeLocalAdmission hE ?_ (h _)
  simp [validLocalAdmissionRecord, LOCAL_ADMISSION_CLOSED, LOCAL_ADMISSION_OPEN, hid, hgeneration,
    ht0]

theorem works_openLocalAdmission {b : ActiveBinding} {R : Unit → World → Prop} {w : World}
    (hb : validActiveBinding b = true) (hl : Loaded P w.store b.deviceId)
    (h : ∀ r, R () (w.stored { w.store with localAdmission := some r })) :
    Works E (openLocalAdmission P b) R w := by
  obtain ⟨c, hc, hid, hk⟩ := hl
  simp only [Works, openLocalAdmission, Cmd.wp_bind, Cmd.wp_ite, wp_fail, wp_theStore, hc, hid]
  refine ⟨fun h => h hb, fun _ => ⟨fun h => h rfl, fun _ => ?_⟩⟩
  rw [probe_attempt, Cmd.wp_attempt]
  refine wp_loadIdentity trivial (fun _ hn => (hn hk).elim) ?_
  intro i hi _ _ hg _
  rw [Cmd.wp_bind, wp_now]
  refine ⟨trivial, fun (t : UInt64) ht => ?_⟩
  have ht0 := hE.now _ t ht
  refine works_writeLocalAdmission hE ?_ (h _)
  have hiv : isApiId i.deviceId = true := by
    rw [hi, ← hid]
    exact deviceId_of_loadForRotation hc
  simp only [validActiveBinding, Bool.and_eq_true, decide_eq_true_eq] at hb
  simp [validLocalAdmissionRecord, hiv, hg, hb, ht0]

theorem works_saveActiveBinding {b : ActiveBinding} {R : Unit → World → Prop} {w : World}
    (hb : validActiveBinding b = true)
    (h : R () (w.stored { w.store with activeBinding := some b })) :
    Works E (saveActiveBinding b) R w := by
  simp only [Works, saveActiveBinding, Cmd.wp_bind, Cmd.wp_ite, wp_fail]
  exact ⟨fun hn => hn hb, fun _ => works_write hE h⟩

end

end

/-! ## A server -/

def challengesPath : String := "/api/v1/ego-browser/proof-challenges"

/-- A challenge of 32 zero bytes. -/
def challengeReply : Json :=
  .obj [("data", .obj [("challenge", .str "AAAAAAAAAAAAAAAAAAAAAAAAAAAAAAAAAAAAAAAAAAA")])]

/-- What the server says to a request. -/
def serverReply (reply : Request → Json) (request : Request) : Json :=
  if request.path = challengesPath then challengeReply else reply request

/-- A server that answers every request, and no fault besides. -/
def served (reply : Request → Json) : Surroundings := fun w q a =>
  match q, a with
  | .post request, x => x = .answered ⟨200, some (serverReply reply request)⟩
  | q, a => calm w q a

theorem served_answers (reply : Request → Json) (w : World) (q : Query) :
    ∃ a, served reply w q a := by
  cases q with
  | post request => exact ⟨Exchange.answered ⟨200, some (serverReply reply request)⟩, rfl⟩
  | _ => exact calm_answers w _

theorem served_faultless (reply : Request → Json) : Faultless (served reply) where
  now w t h := calm_faultless.now w t h
  write w outcome h := calm_faultless.write w outcome h
  remove w outcome h := calm_faultless.remove w outcome h

section

variable {P : Platform} {reply : Request → Json} {w : World}

theorem works_postWithIdempotency {client : DeviceApiClient} {path : String} {payload : Json}
    {key : Option String} {registration : Option Registration} {R : Json → World → Prop}
    (h : ∀ event, R (serverReply reply ⟨client.baseUrl, path, client.token, key, payload⟩)
      (w.logged event)) :
    Works (served reply) (client.postWithIdempotency path payload key registration) R w := by
  refine wp_postWithIdempotency rfl trivial trivial ?_ ?_
  · intro x hx e he
    cases hx
    cases he
  · intro x hx body hb
    cases hx
    cases hb
    exact h _

/-- The identity of a client, as it is read for a valid credential. -/
structure DeviceApiClient.Ready (P : Platform) (client : DeviceApiClient) (host : String) : Prop where
  parsed : (P.parseUrl client.baseUrl).bind (·.hostStr) = some host
  host : host ≠ ""
  deviceId : client.identity.deviceId ≠ ""
  generation : client.identity.generation ≠ 0
  releaseProfile : client.identity.releaseProfile ≠ ""
  credentialProfile : client.identity.credentialProfile ≠ ""

theorem works_addProofForGeneration {client : DeviceApiClient} {host operation : String}
    {generation : UInt64} {bindingId : Option String} {R : Unit → World → Prop}
    (hc : client.Ready P host) (hg : generation ≠ 0) (ho : operation ≠ "")
    (h : ∀ event, R () (w.logged event)) :
    Works (served reply) (client.addProofForGeneration P generation operation bindingId) R w := by
  have hdecode : Base64.decode "AAAAAAAAAAAAAAAAAAAAAAAAAAAAAAAAAAAAAAAAAAA".toList =
      some (List.replicate 32 0) := rfl
  have hproof : client.proofContextValid generation operation host = true := by
    simp [DeviceApiClient.proofContextValid, ho, hg, hc.deviceId, hc.generation,
      hc.releaseProfile, hc.credentialProfile, hc.host]
  simp only [Works, DeviceApiClient.addProofForGeneration, Cmd.wp_bind, Cmd.wp_ite, wp_fail]
  refine ⟨fun h => hg h, fun _ => works_postWithIdempotency fun event => ?_⟩
  have hreply : serverReply reply ⟨client.baseUrl, challengesPath, client.token, none,
      client.challengePayload generation operation bindingId⟩ = challengeReply := if_pos rfl
  rw [show "/api/v1/ego-browser/proof-challenges" = challengesPath from rfl, hreply]
  simp only [challengeReply, get, List.lookup_cons_self, Option.bind_some, asStr, hdecode,
    hc.parsed, hproof, List.length_replicate, Cmd.wp_ite, Cmd.wp_bind, Cmd.wp_pure, wp_fail]
  exact ⟨fun h => h rfl, fun _ => ⟨fun h => h trivial, fun _ => h event⟩⟩

theorem works_bindingRequest {client : DeviceApiClient} {host X operation suffix : String}
    {g : UInt64} {members : List (String × Json)} {R : Json → World → Prop}
    (hc : client.Ready P host) (hX : isApiId X = true) (hg : g ≠ 0) (ho : operation ≠ "")
    (h : ∀ request w', request.path = "/api/v1/ego-browser/bindings/" ++ X ++ suffix →
      w'.store = w.store → R (serverReply reply request) w') :
    Works (served reply) (client.bindingRequest P X g operation suffix members) R w := by
  rw [Works, DeviceApiClient.bindingRequest, Cmd.wp_bind]
  refine wp_lift ?_ fun _ _ => ?_
  · intro e he
    rw [isApiId, he] at hX
    cases hX
  rw [Cmd.wp_bind]
  refine works_addProofForGeneration hc hg ho fun event => ?_
  exact works_postWithIdempotency fun event' => h _ _ rfl rfl

/-! ## A device -/

variable (P) in
/-- A credential that has not run out at second one, with its key. -/
structure Enrolled (s : Store) (c : CommunityCredential) (host : String) : Prop where
  credential : s.load P 1 = .ok c
  key : KeyReadable s
  parsed : (P.parseUrl c.serverUrl).bind (·.hostStr) = some host
  host : host ≠ ""

theorem ne_empty_of_isApiId {value : String} (h : isApiId value = true) : value ≠ "" := by
  rintro rfl
  cases h

/-- What the store has loaded is valid. -/
theorem valid_of_load {s : Store} {t : UInt64} {c : CommunityCredential} (h : s.load P t = .ok c) :
    validCommunityCredential P c (some t) = true := by
  unfold Store.load Store.loadCredential at h
  split at h
  · cases h
  · obtain ⟨hv, h⟩ := ite_error_ok.mp h
    cases h
    exact not_not.mp hv

/-- The identity of an enrolled device makes a client. -/
theorem Enrolled.client {s : Store} {c : CommunityCredential} {host : String}
    (h : Enrolled P s c host) {i : DeviceIdentity} (hd : i.deviceId = c.deviceId)
    (hr : i.releaseProfile = c.releaseProfile) (hp : i.credentialProfile = c.credentialProfile)
    (hg : i.generation ≠ 0) :
    withIdentity P c i = .ok ⟨c.serverUrl, c.token, i⟩ ∧
      DeviceApiClient.Ready P ⟨c.serverUrl, c.token, i⟩ host := by
  have hv := valid_of_load h.credential
  simp only [validCommunityCredential, Bool.and_eq_true, decide_eq_true_eq, isReleaseProfile,
    Bool.not_eq_true', String.isEmpty_eq_false_iff] at hv
  obtain ⟨⟨⟨⟨⟨⟨⟨⟨⟨⟨⟨-, hrelease⟩, hprofile⟩, hid⟩, hurl⟩, -⟩, -⟩, -⟩, -⟩, -⟩, -⟩, -⟩ := hv
  constructor
  · simp [withIdentity, hurl, hd, hr, hp]
  · refine ⟨h.parsed, h.host, hd ▸ ne_empty_of_isApiId hid, hg, hr ▸ hrelease.1.1, ?_⟩
    rw [hp, hprofile]
    decide

theorem works_bindingClient {args : List String} {text host : String} {X : String} {g : UInt64}
    {c : CommunityCredential} {R : BindingClient → World → Prop} (hw : Enrolled P w.store c host)
    (hX : args.head? = some X) (htext : bindingGeneration args = .ok (some text))
    (hg : parseGeneration text = .ok g)
    (h : ∀ i, DeviceApiClient.Ready P ⟨c.serverUrl, c.token, i⟩ host →
      R ⟨X, g, c, ⟨c.serverUrl, c.token, i⟩⟩ w) :
    Works (served reply) (liftM (bindingClient P args)) R w := by
  rw [Works, bindingClient, hX]
  simp only [htext, hg, liftText, probe_bind, probe_pure, Cmd.wp_bind, Cmd.wp_pure, wp_now,
    wp_theStore]
  refine ⟨trivial, fun (t : UInt64) ht => ?_⟩
  have ht1 : t = 1 := ht
  subst ht1
  refine wp_lift_ok hw.credential ?_
  refine wp_loadIdentity trivial (fun _ hn => hn hw.key) fun i hd hr hp hgen _ => ?_
  obtain ⟨hclient, hready⟩ := hw.client hd hr hp hgen
  exact wp_lift_ok hclient (h i hready)

end

/-! ## One device -/

theorem zeroKey_length : (List.replicate 32 (0 : UInt8)).length = 32 := rfl

def sampleKey : Key := ⟨List.replicate 32 0, zeroKey_length⟩

def sampleOrigin : String := "https://control.example.test"

def samplePlatform : Platform where
  parseUrl value :=
    if value = sampleOrigin then
      some ⟨"https", "", none, some "control.example.test", none, none, "/", sampleOrigin⟩
    else none
  verifyingKey := id
  x25519PublicKey := id
  sha256 _ := sampleKey
  parseRfc3339 _ := some 5000

def sampleBuild : Build := ⟨"2.0.0", "2.0.0", "2.0.0", false⟩

def sampleIdentity : DeviceIdentity :=
  ⟨"device-1", sampleKey, sampleKey, 1, COMMUNITY_PROFILE_ID, SUPPORTED_CREDENTIAL_PROFILE, false⟩

def sampleCredential : CommunityCredential :=
  ⟨1, "device-1", sampleOrigin, "egbc_token", some "credential-1", COMMUNITY_PROFILE_ID,
    SUPPORTED_CREDENTIAL_PROFILE, 5000, 1⟩

/-- A handoff of the device. -/
def sampleBinding (bindingId : String) : ActiveBinding :=
  ⟨1, bindingId, 1, "device-1", "agent-remote:session-1", "ego_browser_script_full_trust", true⟩

set_option maxRecDepth 4000 in
theorem enrolled_sample {s : Store} (hc : s.credential = some sampleCredential)
    (hk : s.key = some (encodeIdentity sampleIdentity)) :
    Enrolled samplePlatform s sampleCredential "control.example.test" where
  credential := by
    have hs : sampleCredential.toJson.size ≤ MAX_CREDENTIAL_BYTES := by decide
    have hv : validCommunityCredential samplePlatform sampleCredential (some 1) = true :=
      rfl
    rw [Store.load, Store.loadCredential, hc,
      ownerFile_some (f := fun c : CommunityCredential => c.toJson.size) hs]
    simp only [hv, not_true_eq_false, ↓reduceIte]
  key := by
    refine ⟨_, _, ?_, decodeIdentity_encode (i := sampleIdentity) (by decide)⟩
    rw [hk]
    exact ownerFile_some (f := List.length) (by decide)
  parsed := rfl
  host := by decide

end Device
end EgoBridge
