import EgoBridge.Device.Rotation

/-!
# Device.RotationRuns

Attempts to rotate an identity, one after the other, and what they come to.

* `Setting.Fits`       — what an attempt has stored is taken up by those after it.
* `rotation_converges` — every attempt that returns has installed the prepared key, and a willing
  one returns.
-/

namespace EgoBridge
namespace Device
namespace Rotation

open Protocol Json Crash

section

variable {P : Platform} {o : Origin P} {K : Setting o → Prop} {E : Surroundings} {w : World}

/-! ## Runs of attempts -/

/-- The prepared key and the record that are stored, if they are, are those of the setting. -/
def Setting.Fits (x : Setting o) (w : World) : Prop :=
  (∀ bytes, w.store.pendingKeyRotation = some bytes → bytes = encodeIdentity x.next) ∧
    ∀ p, w.store.pendingRotation = some p → p = x.record

/-- What has been stored is not drawn again. -/
theorem Phase.fixed (h : Phase K w) : Phase (fun x : Setting o => x.Fits w) w := by
  cases h with
  | fresh _ h hkey =>
    refine .fresh (fun x => ⟨?_, ?_⟩) h hkey
    · intro bytes hb
      rw [hkey] at hb
      cases hb
    · intro p hp
      rw [h.rotation] at hp
      cases hp
  | prepared next hn _ h hkey =>
    refine .prepared next hn ?_ h hkey
    rintro x rfl
    refine ⟨?_, ?_⟩
    · intro bytes hb
      rw [hkey] at hb
      cases hb
      rfl
    · intro p hp
      rw [h.rotation] at hp
      cases hp
  | midway x _ h =>
    refine .midway x ⟨?_, ?_⟩ h
    · intro bytes hb
      rw [h.pendingKey] at hb
      cases hb
      rfl
    · intro p hp
      rw [h.rotation] at hp
      cases hp
      rfl
  | discarded x _ h hr hv =>
    refine .discarded x ⟨?_, ?_⟩ h hr hv
    · intro bytes hb
      rw [h.pendingKey] at hb
      cases hb
    · intro p hp
      rw [hr] at hp
      cases hp
      rfl

variable (P) in
/-- Attempts that are interrupted or fail, one after the other. -/
def rotationAttempts (E : Surroundings) (w₀ : World) : Run.System (Build × List String) World :=
  attempts E (· = w₀) fun i => deviceRotate P i.1 i.2

theorem Phase.attempts {w₀ : World} (hs : Serves o E)
    (hclock : ∀ w (t : UInt64), E w .now t → t ≠ 0) (h₀ : Phase K w₀)
    (h : (rotationAttempts P E w₀).Reachable w) : Phase K w := by
  refine Run.System.invariant ?_ ?_ h
  · rintro w rfl
    exact h₀
  · rintro w i w' hw hstep
    exact Cmd.wp_stops hstep (wp_deviceRotate hs hclock hw) fun _ _ h => h.1

end

/-! ## One server -/

/-- The newest revision issued so far, and two if none is newer. -/
def newestRevision (log : List Entry) : UInt64 :=
  log.foldr (fun e newest =>
    match e.event with
    | .issued c => if newest < c.revision then c.revision else newest
    | _ => newest) 2

theorem newestRevision_le (log : List Entry) : 2 ≤ newestRevision log ∧
    ∀ e ∈ log, ∀ c, e.event = .issued c → c.revision ≤ newestRevision log := by
  induction log with
  | nil => simp [newestRevision]
  | cons e log ih =>
    obtain ⟨htwo, hle⟩ := ih
    have hstep : newestRevision log ≤ newestRevision (e :: log) ∧
        ∀ c, e.event = .issued c → c.revision ≤ newestRevision (e :: log) := by
      cases hevent : e.event with
      | issued c =>
        simp only [newestRevision, List.foldr_cons, hevent]
        split
        · rename_i hlt
          exact ⟨UInt64.le_of_lt hlt, fun c' hc => by cases hc; exact UInt64.le_refl _⟩
        · rename_i hge
          exact ⟨UInt64.le_refl _, fun c' hc => by cases hc; exact UInt64.not_lt.mp hge⟩
      | _ =>
        simp only [newestRevision, List.foldr_cons, hevent]
        exact ⟨UInt64.le_refl _, fun c hc => by cases hc⟩
    refine ⟨UInt64.le_trans htwo hstep.1, ?_⟩
    intro e' he' c hc
    rcases List.mem_cons.mp he' with rfl | he'
    · exact hstep.2 c hc
    · exact UInt64.le_trans (hle e' he' c hc) hstep.1

/-- What is issued with a revision. -/
def rotatedMembers (revision : UInt64) (deviceId credentialProfile generation : Json) :
    List (String × Json) :=
  [("ego_browser_device_id", deviceId), ("access_token", .str "egbc_token"),
    ("id", .str "credential-2"), ("credential_profile", credentialProfile),
    ("device_generation", generation), ("credential_revision", ofU64 revision),
    ("token_type", .str "bearer"), ("credential_scope", .str "device"),
    ("expires_in", ofU64 4999), ("credential_expires_at", .str "1970-01-01T01:23:20Z")]

/-- The server repeats what it is told, with a credential for it. -/
def rotationReply (revision : UInt64) (request : Request) : Json :=
  let field := fun name => (get request.payload name).getD .null
  .obj [("data", .obj ([("device_id", field "device_id"),
    ("signing_public_key", field "signing_public_key"),
    ("encryption_public_key", field "encryption_public_key"),
    ("device_generation", field "device_generation"), ("status", .str "active"),
    ("release_profile", field "release_profile"),
    ("credential_profile", field "credential_profile"),
    ("signer_certificate_sha256", field "signer_certificate_sha256"),
    ("server_origin", .str request.server),
    ("credential", .obj (rotatedMembers revision (field "device_id")
      (field "credential_profile") (field "device_generation")))] ++
    ("capabilities" :: policyFields).filterMap fun name =>
      (get request.payload name).map (name, ·)))]

/-- An installed release, and this server. -/
def rotationAnswers (w : World) : (q : Query) → Option q.Answer
  | .idempotencyKey => some sampleKey
  | q => releaseAnswers (rotationReply (newestRevision w.log)) w q

theorem rotationReply_eq {P : Platform} {r : Request} {registration : Registration}
    (revision : UInt64) (h : r.payload = registrationPayload P registration) :
    rotationReply revision r = registrationReply P registration r.server (.obj (rotatedMembers
      revision (.str registration.identity.deviceId) (.str registration.identity.credentialProfile)
      (ofU64 registration.identity.generation))) := by
  rw [rotationReply, h]
  rfl

def rotatedCredential (revision : UInt64) (identity : DeviceIdentity) : CommunityCredential :=
  ⟨1, identity.deviceId, sampleOrigin, "egbc_token", some "credential-2", identity.releaseProfile,
    identity.credentialProfile, 5000, revision⟩

theorem issued_rotated {revision : UInt64} (hne : revision ≠ 0) (i : DeviceIdentity) :
    credentialFromIssued samplePlatform (.obj (rotatedMembers revision (.str i.deviceId)
      (.str i.credentialProfile) (ofU64 i.generation))) sampleOrigin i none 1 =
        .ok (rotatedCredential revision i) := by
  generalize hissued : Json.obj (rotatedMembers revision (.str i.deviceId)
    (.str i.credentialProfile) (ofU64 i.generation)) = issued
  have hget : get issued "credential_revision" = some (ofU64 revision) ∧
      get issued "ego_browser_device_id" = some (.str i.deviceId) ∧
      get issued "credential_profile" = some (.str i.credentialProfile) ∧
      get issued "device_generation" = some (ofU64 i.generation) ∧
      get issued "generation" = none ∧ get issued "revision" = none ∧
      get issued "token_type" = some (.str "bearer") ∧
      get issued "credential_scope" = some (.str "device") ∧
      get issued "access_token" = some (.str "egbc_token") ∧
      get issued "id" = some (.str "credential-2") := by
    rw [← hissued]
    exact ⟨rfl, rfl, rfl, rfl, rfl, rfl, rfl, rfl, rfl, rfl⟩
  have hmatches : issuedMatches issued i revision = true := by
    simp [issuedMatches, hget, asStr]
  have hin : ((get issued "expires_in").bind asU64).filter (0 < ·) = some 4999 := by
    rw [← hissued]
    rfl
  have hat : parseCredentialExpiry samplePlatform issued 4999 1 = .ok 5000 := by
    rw [← hissued]
    rfl
  simp [credentialFromIssued, present, bind, Except.bind, hget, hmatches, hin, hat, hne, asStr,
    rotatedCredential]

theorem storable_rotated {revision : UInt64} {i : DeviceIdentity} (hne : revision ≠ 0)
    (hi : NextOf sampleIdentity i) : Storable samplePlatform (rotatedCredential revision i) := by
  obtain ⟨hid, hrelease, hprofile, -, -⟩ := hi
  rw [rotatedCredential, hid, hrelease, hprofile]
  constructor
  · have hvalid : validCommunityCredential samplePlatform (rotatedCredential 2 sampleIdentity)
        none = true := rfl
    simp only [validCommunityCredential, rotatedCredential, Bool.and_eq_true] at hvalid ⊢
    exact ⟨hvalid.1, decide_eq_true (UInt64.pos_iff_ne_zero.mpr hne)⟩
  · have hrevision := size_ofU64_le revision
    refine (size_obj_le (n := 300) ?_).trans (by simp [MAX_CREDENTIAL_BYTES])
    simp only [List.forall_mem_cons]
    exact ⟨⟨by decide, by decide⟩, ⟨by decide, by decide⟩,
      ⟨by decide, by decide⟩, ⟨by decide, by decide⟩,
      ⟨by decide, by decide⟩, ⟨by decide, by decide⟩,
      ⟨by decide, by decide⟩, ⟨by decide, by decide⟩,
      ⟨by decide, hrevision.trans (by decide)⟩, List.forall_mem_nil _⟩

set_option maxRecDepth 4000 in
theorem storable_sample : Storable samplePlatform sampleCredential :=
  ⟨by decide, by decide⟩

def sampleStart : Origin samplePlatform where
  old := sampleIdentity
  credential := sampleCredential
  policy := none
  current := rfl
  generation := rfl
  storable := storable_sample
  own := ⟨rfl, rfl, rfl, rfl⟩

theorem serves_rotationAnswers : Serves sampleStart (Cmd.Given rotationAnswers) := by
  intro w r x body registration hx hpath hserver hpayload hnext hbody t ht
  have hne : r.path ≠ challengesPath := by
    rw [hpath]
    decide
  obtain ⟨htwo, hnewest⟩ := newestRevision_le w.log
  have hpos : newestRevision w.log ≠ 0 := by
    intro hz
    rw [hz] at htwo
    exact absurd htwo (by decide)
  have hx' : some (Exchange.answered ⟨200, some (serverReply
      (rotationReply (newestRevision w.log)) r)⟩) = some x := hx
  rw [serverReply, if_neg hne, rotationReply_eq _ hpayload] at hx'
  cases hx'
  cases hbody
  have ht' : some (1 : UInt64) = some t := ht
  cases ht'
  refine ⟨rotatedCredential (newestRevision w.log) registration.identity, ?_,
    storable_rotated hpos hnext, ?_, hnewest⟩
  · rw [hpayload, registrationReply_accepted, hserver]
    exact issued_rotated hpos _
  · exact UInt64.lt_of_lt_of_le (by decide) htwo

theorem challenge_decoded :
    Base64.decode "AAAAAAAAAAAAAAAAAAAAAAAAAAAAAAAAAAAAAAAAAAA".toList =
      some (List.replicate 32 0) := rfl

def rotateArgs : List String := ["--confirm", "--token", "token"]

theorem willing_sample :
    Willing sampleStart (Cmd.Given rotationAnswers) sampleBuild rotateArgs where
  confirm := by decide
  lock w := by
    have heval : (liftM lockRegistration : Command Unit).eval rotationAnswers w = some ((), w) :=
      rfl
    exact Cmd.wp_eval heval trivial
  token w := by
    have heval : (liftM (tokenFromArgs rotateArgs) : Command String).eval rotationAnswers w =
        some ("token", w) := rfl
    exact Cmd.wp_eval heval ⟨by decide, by decide, by decide⟩
  signer w := by
    have heval : (liftM (orCompatibilityMismatch (signerCertificateSha256ForProfile sampleBuild
        rotateArgs (some COMMUNITY_PROFILE_ID))) : Command String).eval rotationAnswers w =
          some (TRUSTED_COMMUNITY_SIGNER_CERTIFICATE_SHA256, w) := rfl
    exact Cmd.wp_eval heval trivial
  evidence w hp := by
    have heval : (liftM (Rotate.evidence sampleBuild) :
        Command (String × VerifiedLocalPolicy)).eval rotationAnswers w =
          some (("2.0.0", ⟨1, 1, none, none, none⟩), w) := by
      obtain ⟨⟨credential, key, metadata, pendingKey, rotation, registration, policy, binding,
        admission⟩, log⟩ := w
      have hnone : policy = none := hp
      rw [hnone]
      rfl
    exact Cmd.wp_eval heval trivial
  write w outcome h := by
    cases h
    rfl
  remove w outcome h := by
    cases h
    rfl
  answers w r x h := by
    have hx : some (Exchange.answered ⟨200, some (serverReply
      (rotationReply (newestRevision w.log)) r)⟩) = some x := h
    cases hx
    refine ⟨_, rfl, ?_⟩
    intro hpath
    rw [serverReply, if_pos hpath]
    exact ⟨_, _, rfl, challenge_decoded, List.length_replicate⟩
  host := ⟨"control.example.test", rfl, by decide⟩

theorem answers_rotationAnswers (w : World) (q : Query) : ∃ a, Cmd.Given rotationAnswers w q a := by
  cases q with
  | idempotencyKey => exact ⟨sampleKey, rfl⟩
  | _ => exact ⟨_, rfl⟩

theorem clock_rotationAnswers (w : World) (t : UInt64)
    (h : Cmd.Given rotationAnswers w .now t) : t ≠ 0 := by
  have ht : some (1 : UInt64) = some t := h
  cases ht
  decide

def rotationStore : Store := { Store.empty with
  credential := some sampleCredential
  key := some (encodeIdentity sampleIdentity) }

theorem before_sample : Before sampleStart ⟨rotationStore, []⟩ where
  credential := load_stored storable_sample rfl
  key := keyFile_encode (by decide)
  rotation := rfl
  handoff := rfl
  policy := rfl
  log := rfl

def rotatedIdentity : DeviceIdentity := { sampleIdentity with generation := 2 }

/-- The store of an attempt that has not been answered yet. -/
def recordedStore : Store := { rotationStore with
  pendingKeyRotation := some (encodeIdentity rotatedIdentity)
  pendingRotation := some (rotationRecord samplePlatform sampleIdentity rotatedIdentity 1
    (encodeB64url sampleKey.bytes) 1) }

set_option maxRecDepth 4000 in
theorem interrupted_sample : Cmd.Stops (Cmd.Given rotationAnswers)
    (deviceRotate samplePlatform sampleBuild rotateArgs) ⟨rotationStore, []⟩
      ⟨recordedStore, []⟩ := by
  rw [deviceRotate, if_neg (by decide)]
  refine Cmd.Stops.after () ⟨rotationStore, []⟩ rfl ?_
  refine Cmd.Stops.after "token" ⟨rotationStore, []⟩ rfl ?_
  refine Cmd.Stops.after rotationStore ⟨rotationStore, []⟩ rfl ?_
  refine Cmd.Stops.after sampleCredential ⟨rotationStore, []⟩ rfl ?_
  refine Cmd.Stops.after sampleIdentity ⟨rotationStore, []⟩ rfl ?_
  refine Cmd.Stops.after false ⟨rotationStore, []⟩ rfl ?_
  rw [if_neg (by decide), Rotate.start]
  refine Cmd.Stops.after TRUSTED_COMMUNITY_SIGNER_CERTIFICATE_SHA256 ⟨rotationStore, []⟩
    rfl ?_
  refine Cmd.Stops.after rotationStore ⟨rotationStore, []⟩ rfl ?_
  refine Cmd.Stops.after none ⟨rotationStore, []⟩ rfl ?_
  refine Cmd.Stops.after none ⟨rotationStore, []⟩ rfl ?_
  rw [if_neg (by decide)]
  refine Cmd.Stops.after rotationStore ⟨rotationStore, []⟩ rfl ?_
  refine Cmd.Stops.after none ⟨rotationStore, []⟩ rfl ?_
  rw [if_neg (by decide)]
  refine Cmd.Stops.after rotatedIdentity
    ⟨{ rotationStore with pendingKeyRotation := some (encodeIdentity rotatedIdentity) }, []⟩
    rfl ?_
  unfold Rotate.submit
  refine Cmd.Stops.after (rotationRecord samplePlatform sampleIdentity rotatedIdentity 1
    (encodeB64url sampleKey.bytes) 1) ⟨recordedStore, []⟩ rfl ?_
  exact ⟨_, .refl, rfl⟩

section

variable {P : Platform} {o : Origin P} {E : Surroundings} {w : World}

/-- However often a rotation is interrupted or fails, and wherever: an attempt that returns has
installed the prepared key with the credential of the server's last answer and has left nothing
behind, everything that was sent was sent for this key under one operation key, and the key and the
record that were stored on the way are its own. An attempt that nothing stops returns. -/
theorem rotation_converges {w₀ w' : World} {E' : Surroundings} (hs : Serves o E)
    (hclock : ∀ w (t : UInt64), E w .now t → t ≠ 0) (h₀ : Before o w₀)
    (hkey : w₀.store.pendingKeyRotation = none) (h : (rotationAttempts P E w₀).Reachable w)
    (h' : (rotationAttempts P E w).Reachable w') (hs' : Serves o E')
    (hclock' : ∀ w (t : UInt64), E' w .now t → t ≠ 0) (build : Build) (args : List String) :
    (∀ w'', Cmd.Returns E' (deviceRotate P build args) w' () w'' →
      ∃ x : Setting o, Converged x w'' ∧ x.Fits w) ∧
    (Willing o E' build args →
      (∀ e w'', ¬ Cmd.Fails E' (deviceRotate P build args) w' e w'') ∧
      ((∀ w q, ∃ a, E' w q a) → ∃ w'', Cmd.Returns E' (deviceRotate P build args) w' () w'')) := by
  have hphase : Phase (fun _ : Setting o => True) w :=
    Phase.attempts hs hclock (.fresh (fun _ => trivial) h₀ hkey) h
  have hwp : Rotates (fun x : Setting o => x.Fits w) E' build args (deviceRotate P build args)
      (Done _) w' := wp_deviceRotate hs' hclock' (Phase.attempts hs hclock hphase.fixed h')
  have hwilling : Willing o E' build args →
      ∀ e w'', ¬ Cmd.Fails E' (deviceRotate P build args) w' e w'' :=
    fun hw e w'' he => (Cmd.wp_fails he hwp).2 hw
  refine ⟨?_, fun hw => ⟨hwilling hw, ?_⟩⟩
  · intro w'' hr
    obtain ⟨x, hx, hc⟩ := Cmd.wp_returns hr hwp
    exact ⟨x, hc, hx⟩
  · intro hE
    rcases Cmd.exists_end hE (deviceRotate P build args) w' with ⟨_, w'', hr⟩ | ⟨e, w'', he⟩
    · exact ⟨w'', hr⟩
    · exact absurd he (hwilling hw e w'')

/-- An attempt that was interrupted before its request is taken up, and comes to its end. -/
theorem rotation_converges_sample : ∃ w'', Cmd.Returns (Cmd.Given rotationAnswers)
      (deviceRotate samplePlatform sampleBuild rotateArgs) ⟨recordedStore, []⟩ () w'' ∧
    w''.store.key = some (encodeIdentity rotatedIdentity) ∧ w''.store.pendingRotation = none := by
  have hreached : (rotationAttempts samplePlatform (Cmd.Given rotationAnswers)
      ⟨rotationStore, []⟩).Reachable ⟨recordedStore, []⟩ :=
    (Run.System.Reachable.start rfl).next (sampleBuild, rotateArgs) interrupted_sample
  obtain ⟨hends, hreturns⟩ := rotation_converges serves_rotationAnswers clock_rotationAnswers
    before_sample rfl hreached (Run.System.Reachable.start rfl) serves_rotationAnswers
    clock_rotationAnswers sampleBuild rotateArgs
  obtain ⟨w'', hw''⟩ := (hreturns willing_sample).2 answers_rotationAnswers
  obtain ⟨x, hx, hkey, -⟩ := hends w'' hw''
  refine ⟨w'', hw'', ?_, hx.rotation⟩
  rw [hx.key, ← hkey _ rfl]

end

end Rotation
end Device
end EgoBridge
