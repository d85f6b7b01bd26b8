import EgoBridge.Device.OperationRuns
import EgoBridge.Device.RotationRuns

/-!
# Device.Stranded

A key file of the legacy format, and the record that a rotation of it has left behind.

The legacy format has no encryption key: `load_identity` draws one at each reading. The record of a
rotation holds the digest of the one that was drawn when it was written, and a later attempt, which
has drawn another, refuses the record as another rotation's. `ensure` refuses the format itself.

* `Remains`         — the file and the record.
* `wp_attempt`      — with both in place an attempt changes neither and does not return.
* `legacy_stranded` — no attempt to rotate or to enroll ever returns again.
-/

namespace EgoBridge
namespace Device
namespace Stranded

open Protocol Json Crash

/-- A key file of the legacy format, and a record that leads to another generation. -/
structure Remains where
  file : Bytes
  signingKey : Key
  generation : UInt64
  record : PendingRotation
  legacy : decodeIdentity file = .ok ⟨signingKey, none, generation⟩
  moved : record.targetGeneration ≠ generation

/-- Both are stored. -/
structure InPlace (x : Remains) (w : World) : Prop where
  key : w.store.key = some x.file
  record : w.store.pendingRotation = some x.record

/-- Whether an encryption key is the one that the record was written with. -/
def Remains.Repeats (x : Remains) (P : Platform) (key : Key) : Prop :=
  x.record.oldEncryptionPublicKeySha256 =
    publicValueSha256 P (encodeB64url (P.x25519PublicKey key).bytes)

/-- The encryption keys that are drawn from then on are not that one. -/
def Apart (P : Platform) (x : Remains) (E : Surroundings) : Prop :=
  ∀ w (key : Key), InPlace x w → E w .encryptionKey key → ¬ x.Repeats P key

/-- An identity that was read from the file. -/
structure Read (x : Remains) (E : Surroundings) (i : DeviceIdentity) : Prop where
  generation : i.generation = x.generation
  legacy : i.legacyEncryptionKey = true
  drawn : ∃ w, InPlace x w ∧ E w .encryptionKey i.encryptionKey

section

variable {P : Platform} {x : Remains} {E : Surroundings} {w : World} {build : Build}
  {args : List String}

/-! ## Reading -/

theorem wp_load {deviceId releaseProfile credentialProfile : String}
    {R : DeviceIdentity → World → Prop} (h : InPlace x w) (hR : ∀ i, Read x E i → R i w) :
    Cmd.wp E (InPlace x) (fun _ => InPlace x)
      (liftM (loadIdentity deviceId releaseProfile credentialProfile) : Command DeviceIdentity) R
        w := by
  have hlen := decodeIdentity_length x.legacy
  rw [loadIdentity, probe_bind, Cmd.wp_bind, wp_theStore, h.key, loadIdentityFile, probe_bind,
    Cmd.wp_bind]
  refine wp_lift_ok (ownerFile_some ?_) ?_
  · simp only [MAX_CREDENTIAL_BYTES]
    omega
  · rw [probe_bind, Cmd.wp_bind]
    refine wp_lift_ok x.legacy ?_
    exact ⟨h, fun key hkey => hR _ ⟨rfl, rfl, w, h, hkey⟩⟩

/-- What follows the reading of the record follows it with this one. -/
theorem wp_readRecord {α : Type} {f : Option PendingRotation → Command α} {R : α → World → Prop}
    (h : InPlace x w)
    (hR : Cmd.wp E (InPlace x) (fun _ => InPlace x) (f (some x.record)) R w) :
    Cmd.wp E (InPlace x) (fun _ => InPlace x)
      (liftM theStore >>= fun s => liftM (lift s.readPendingRotation) >>= f) R w := by
  rw [Cmd.wp_bind, wp_theStore, Cmd.wp_bind]
  refine wp_lift (fun _ _ => h) fun existing hx => ?_
  rw [← stored_of_readPendingRotation hx, h.record]
  exact hR

/-- The record is of no rotation of what is read from the file. -/
theorem not_matches {current next : DeviceIdentity} (hE : Apart P x E) (hi : Read x E current) :
    pendingRotationMatches P x.record current next = false := by
  obtain ⟨hgeneration, -, w, h, hdrawn⟩ := hi
  rw [Bool.eq_false_iff]
  intro hm
  simp only [pendingRotationMatches, Bool.and_eq_true, Bool.or_eq_true, decide_eq_true_eq] at hm
  obtain ⟨-, ⟨-, hold⟩ | ⟨⟨htarget, -⟩, -⟩⟩ := hm
  · exact hE w _ h hdrawn hold
  · exact x.moved (htarget.trans hgeneration)

/-! ## Rotation -/

/-- The rotation has not been committed. -/
theorem wp_finish {current : DeviceIdentity} {previous : CommunityCredential}
    {R : Bool → World → Prop} (h : InPlace x w) (hi : Read x E current) (hR : R false w) :
    Cmd.wp E (InPlace x) (fun _ => InPlace x)
      (finishInterruptedIdentityRotation P current previous) R w := by
  have htarget : x.record.targetGeneration ≠ current.generation := by
    rw [hi.generation]
    exact x.moved
  unfold finishInterruptedIdentityRotation
  refine wp_readRecord h ?_
  refine wp_probe h fun pending _ => ?_
  rw [Cmd.wp_ite]
  exact ⟨fun _ => hR, fun hn => absurd (.inr (.inr (.inl htarget))) hn⟩

/-- The stored record is refused before anything is sent. -/
theorem wp_submitted {token signer : String} {previous : CommunityCredential}
    {current next : DeviceIdentity} (hE : Apart P x E) (h : InPlace x w)
    (hi : Read x E current) :
    Cmd.wp E (InPlace x) (fun _ => InPlace x)
      (Rotate.submit P build token signer previous current next) (fun _ _ => False) w := by
  unfold Rotate.submit
  rw [Cmd.wp_bind]
  unfold loadOrCreatePendingRotation
  refine wp_check h fun _ => ?_
  refine wp_check h fun _ => ?_
  refine wp_readRecord h ?_
  refine wp_check h fun hm => ?_
  rw [not_matches hE hi] at hm
  exact absurd Bool.false_ne_true hm

theorem wp_started {token : String} {previous : CommunityCredential} {current : DeviceIdentity}
    (hE : Apart P x E) (h : InPlace x w) (hi : Read x E current) :
    Cmd.wp E (InPlace x) (fun _ => InPlace x)
      (Rotate.start P build args token previous current) (fun _ _ => False) w := by
  unfold Rotate.start
  refine wp_probe h fun signer _ => ?_
  refine wp_readRecord h ?_
  refine wp_probe h fun prepared _ => ?_
  refine wp_check h fun hboth => ?_
  refine wp_probe h fun _ _ => ?_
  refine wp_probe h fun _ _ => ?_
  refine wp_check h fun _ => ?_
  cases prepared with
  | none => exact absurd ⟨rfl, rfl⟩ hboth
  | some next => exact wp_submitted hE h hi

theorem wp_rotate (hE : Apart P x E) (h : InPlace x w) :
    Cmd.wp E (InPlace x) (fun _ => InPlace x) (deviceRotate P build args) (fun _ _ => False)
      w := by
  unfold deviceRotate
  refine wp_check h fun _ => ?_
  refine wp_probe h fun _ _ => ?_
  refine wp_probe h fun token _ => ?_
  rw [Cmd.wp_bind, wp_theStore, Cmd.wp_bind]
  refine wp_lift (fun _ _ => h) fun previous _ => ?_
  rw [Cmd.wp_bind]
  refine wp_load h fun current hi => ?_
  rw [Cmd.wp_bind]
  refine wp_finish h hi ?_
  simp only [Bool.false_eq_true, ↓reduceIte]
  exact wp_started hE h hi

/-! ## Enrollment -/

/-- A pending registration is written beside them. -/
theorem wp_findPending (h : InPlace x w) {R : Option PendingRegistration → World → Prop}
    (hR : ∀ pending w, InPlace x w → R pending w) :
    Cmd.wp E (InPlace x) (fun _ => InPlace x) (Ensure.findPending P args) R w := by
  have hchanges : Changes P [.write .pendingRegistration] (Ensure.findPending P args) :=
    changes_findPending (by decide)
  have hkeeps : Cmd.Keeps E (InPlace x) (Ensure.findPending P args) := by
    refine hchanges.keeps ?_
    intro k hk w w' hc hw
    obtain rfl := List.mem_singleton.mp hk
    obtain ⟨_, -, rfl⟩ := hc
    exact ⟨hw.key, hw.record⟩
  exact Cmd.wp_post (hkeeps w h) fun pending w' h' => hR pending w' h'

/-- Whatever names the identity, it is read from the file. -/
theorem wp_findIdentity {server releaseProfile credentialProfile : String}
    {pending : Option PendingRegistration} {credential : Option CommunityCredential}
    {metadata : Option StoredIdentityMetadata} {R : DeviceIdentity → World → Prop}
    (h : InPlace x w) (hR : ∀ i, Read x E i → R i w) :
    Cmd.wp E (InPlace x) (fun _ => InPlace x) (Ensure.findIdentity P server releaseProfile
      credentialProfile pending credential metadata) R w := by
  unfold Ensure.findIdentity
  split
  · rw [Cmd.wp_bind]
    refine wp_load h fun i hi => ?_
    refine wp_check h fun _ => ?_
    refine wp_probe h fun _ _ => ?_
    exact hR i hi
  · exact wp_load h hR
  · refine wp_check h fun _ => ?_
    exact wp_load h hR
  · rw [Cmd.wp_bind, wp_theStore]
    refine wp_check h fun hn => ?_
    rw [h.key] at hn
    exact absurd rfl hn

theorem wp_enroll (h : InPlace x w) :
    Cmd.wp E (InPlace x) (fun _ => InPlace x) (ensure P build args) (fun _ _ => False) w := by
  unfold ensure
  refine wp_probe h fun _ _ => ?_
  rw [Cmd.wp_bind]
  refine wp_findPending h fun pending w h => ?_
  refine wp_probe h fun store _ => ?_
  refine wp_probe h fun existing _ => ?_
  refine wp_probe h fun stored _ => ?_
  refine wp_probe h fun server _ => ?_
  refine wp_probe h fun token _ => ?_
  refine wp_probe h fun releaseProfile _ => ?_
  refine wp_probe h fun credentialProfile _ => ?_
  refine wp_check h fun _ => ?_
  have hrefused : ∀ rest : DeviceIdentity → Command Unit, Cmd.wp E (InPlace x)
      (fun _ => InPlace x) (do
        let identity ← Ensure.findIdentity P server releaseProfile credentialProfile pending
          existing stored
        if (identity.releaseProfile ≠ releaseProfile ∨
            identity.credentialProfile ≠ credentialProfile) ∧ pending.isNone then
          fail .compatibilityMismatch
        if identity.needsEncryptionKeyRotation then fail .malformed
        rest identity) (fun _ _ => False) w := by
    intro rest
    rw [Cmd.wp_bind]
    refine wp_findIdentity h fun i hi => ?_
    refine wp_check h fun _ => ?_
    refine wp_check h fun hn => ?_
    exact absurd hi.legacy hn
  rw [Cmd.wp_ite]
  exact ⟨fun _ => wp_probe h fun _ _ => hrefused _, fun _ => hrefused _⟩

/-! ## Runs of attempts -/

inductive Attempt where
  | enroll (build : Build) (args : List String)
  | rotate (build : Build) (args : List String)

variable (P) in
def Attempt.command : Attempt → Command Unit
  | .enroll build args => ensure P build args
  | .rotate build args => deviceRotate P build args

theorem wp_attempt (hE : Apart P x E) (h : InPlace x w) (a : Attempt) :
    Cmd.wp E (InPlace x) (fun _ => InPlace x) (a.command P) (fun _ _ => False) w := by
  cases a with
  | enroll build args => exact wp_enroll h
  | rotate build args => exact wp_rotate hE h

variable (P) in
/-- Attempts that are interrupted or fail, one after the other. -/
def recoveries (E : Surroundings) (w₀ : World) : Run.System Attempt World :=
  attempts E (· = w₀) fun a => a.command P

theorem InPlace.stays {w₀ : World} (hE : Apart P x E) (h₀ : InPlace x w₀)
    (h : (recoveries P E w₀).Reachable w) : InPlace x w := by
  refine Run.System.invariant ?_ ?_ h
  · rintro w rfl
    exact h₀
  · rintro w a w' hw hstep
    exact Cmd.wp_stops hstep (wp_attempt hE hw a) fun _ _ h => h

end

/-! ## A legacy file -/

def anotherKey : Key := ⟨List.replicate 32 7, rfl⟩

/-- Every reading but the first draws another encryption key. -/
def legacyAnswers (w : World) : (q : Query) → Option q.Answer
  | .encryptionKey => some (if w.store.pendingRotation.isNone then sampleKey else anotherKey)
  | q => Rotation.rotationAnswers w q

def legacyFile : Bytes := legacyIdentityTag ++ (toBeBytes 1 ++ sampleKey.bytes)

def legacyStore : Store := { Store.empty with
  credential := some sampleCredential
  key := some legacyFile }

def legacyIdentity : DeviceIdentity := { sampleIdentity with legacyEncryptionKey := true }

def legacyRecord : PendingRotation := rotationRecord digestPlatform legacyIdentity
  Rotation.rotatedIdentity 1 (encodeB64url sampleKey.bytes) 1

/-- The store of a rotation that has not been answered yet. -/
def strandedStore : Store := { legacyStore with
  pendingKeyRotation := some (encodeIdentity Rotation.rotatedIdentity)
  pendingRotation := some legacyRecord }

/-- The file and the record of the interrupted rotation. -/
def sampleRemains : Remains where
  file := legacyFile
  signingKey := sampleKey
  generation := 1
  record := legacyRecord
  legacy := rfl
  moved := by decide

theorem apart_sample : Apart digestPlatform sampleRemains (Cmd.Given legacyAnswers) := by
  intro w key h hkey hrepeats
  have hrecord : w.store.pendingRotation = some legacyRecord := h.record
  have hsome : some (if w.store.pendingRotation.isNone then sampleKey else anotherKey) =
    some key := hkey
  rw [hrecord] at hsome
  cases hsome
  have hsame : encodeB64url sampleKey.bytes = encodeB64url anotherKey.bytes :=
    publicValueSha256_key hrepeats
  revert hsame
  decide

set_option maxRecDepth 4000 in
theorem interrupted_legacy : Cmd.Stops (Cmd.Given legacyAnswers)
    (deviceRotate digestPlatform sampleBuild Rotation.rotateArgs) ⟨legacyStore, []⟩
      ⟨strandedStore, []⟩ := by
  rw [deviceRotate, if_neg (by decide)]
  refine Cmd.Stops.after () ⟨legacyStore, []⟩ rfl ?_
  refine Cmd.Stops.after "token" ⟨legacyStore, []⟩ rfl ?_
  refine Cmd.Stops.after legacyStore ⟨legacyStore, []⟩ rfl ?_
  refine Cmd.Stops.after sampleCredential ⟨legacyStore, []⟩ rfl ?_
  refine Cmd.Stops.after legacyIdentity ⟨legacyStore, []⟩ rfl ?_
  refine Cmd.Stops.after false ⟨legacyStore, []⟩ rfl ?_
  rw [if_neg (by decide), Rotate.start]
  refine Cmd.Stops.after TRUSTED_COMMUNITY_SIGNER_CERTIFICATE_SHA256 ⟨legacyStore, []⟩
    rfl ?_
  refine Cmd.Stops.after legacyStore ⟨legacyStore, []⟩ rfl ?_
  refine Cmd.Stops.after none ⟨legacyStore, []⟩ rfl ?_
  refine Cmd.Stops.after none ⟨legacyStore, []⟩ rfl ?_
  rw [if_neg (by decide)]
  refine Cmd.Stops.after legacyStore ⟨legacyStore, []⟩ rfl ?_
  refine Cmd.Stops.after none ⟨legacyStore, []⟩ rfl ?_
  rw [if_neg (by decide)]
  refine Cmd.Stops.after Rotation.rotatedIdentity
    ⟨{ legacyStore with pendingKeyRotation := some (encodeIdentity Rotation.rotatedIdentity) }, []⟩
    rfl ?_
  unfold Rotate.submit
  refine Cmd.Stops.after legacyRecord ⟨strandedStore, []⟩ rfl ?_
  exact ⟨_, .refl, rfl⟩

section

variable {P : Platform} {x : Remains} {E : Surroundings} {w : World}

/-- Once an attempt to rotate a key file of the legacy format has left its record behind, no attempt
to rotate or to enroll returns any more, however often it is tried, and the file and the record
stay. -/
theorem legacy_stranded {w₀ : World} (hE : Apart P x E) (h₀ : InPlace x w₀)
    (h : (recoveries P E w₀).Reachable w) (a : Attempt) :
    InPlace x w ∧ ∀ w', ¬ Cmd.Returns E (a.command P) w () w' := by
  have hw : InPlace x w := h₀.stays hE h
  refine ⟨hw, ?_⟩
  intro w' hr
  exact Cmd.wp_returns hr (wp_attempt hE hw a)

/-- A rotation that is interrupted before its request is never finished. -/
theorem legacy_stranded_sample : Cmd.Stops (Cmd.Given legacyAnswers)
      (deviceRotate digestPlatform sampleBuild Rotation.rotateArgs) ⟨legacyStore, []⟩
        ⟨strandedStore, []⟩ ∧
    ∀ w', ¬ Cmd.Returns (Cmd.Given legacyAnswers)
      (deviceRotate digestPlatform sampleBuild Rotation.rotateArgs) ⟨strandedStore, []⟩ () w' := by
  have h₀ : InPlace sampleRemains ⟨strandedStore, []⟩ := ⟨rfl, rfl⟩
  have hstranded := legacy_stranded apart_sample h₀ (Run.System.Reachable.start rfl)
    (.rotate sampleBuild Rotation.rotateArgs)
  exact ⟨interrupted_legacy, hstranded.2⟩

end

end Stranded
end Device
end EgoBridge
