import EgoBridge.Device.Registration
import EgoBridge.Device.Texts

/-!
# Device.ReadBack

What the store's writers accept against what its readers accept.

A `Write` is one call of a writer. Three of the writers check less than their readers do: the
pending registration's, the pending rotation's, and the policy's, which does not look at the size
of its text.

* `read_back_iff` — a value that was written is read back exactly where it fits its reader.
* `oversized_policy_locks_out` — an update of many long roots is committed and never read again.
-/

namespace EgoBridge
namespace Device

open Protocol Json Crash

variable (P : Platform)

def isHexSha256 (value : String) : Bool :=
  (utf8 value).length = 64 && (utf8 value).all isAsciiHexdigit

/-! ## Writes -/

inductive Write where
  | credential (credential : CommunityCredential)
  | identityMetadata (identity : DeviceIdentity) (serverUrl : String)
  | activeBinding (binding : ActiveBinding)
  | pendingRegistration (pending : PendingRegistration)
  | pendingRotation (current next : DeviceIdentity) (currentCredentialRevision : UInt64)
      (idempotencyKey : Option String)
  | openAdmission (binding : ActiveBinding)
  | closeAdmission
  | readyAdmission
  | policy (update : PreparedPolicyUpdate)

namespace Write

/-- The writer's call, with the recovery state of a rotation as its result. -/
def run : Write → Command (Option PendingRotation)
  | credential c => do
    save P c
    pure none
  | identityMetadata identity serverUrl => do
    saveIdentityMetadata P identity serverUrl
    pure none
  | activeBinding b => do
    saveActiveBinding b
    pure none
  | pendingRegistration p => do
    savePendingRegistration P p
    pure none
  | pendingRotation current next revision key => do
    pure (some (← loadOrCreatePendingRotation P current next revision key))
  | openAdmission b => do
    openLocalAdmission P b
    pure none
  | closeAdmission => do
    closeLocalAdmission P
    pure none
  | readyAdmission => do
    readyLocalAdmission P
    pure none
  | policy update => do
    commitPolicyUpdate update
    pure none

end Write

/-! ## Runs to the end -/

/-- `R` holds wherever the command comes to its end. -/
abbrev Ends {α : Type} (E : Surroundings) (p : Command α) (R : α → World → Prop) (w : World) :
    Prop :=
  Cmd.wp E (fun _ => True) (fun _ _ => True) p R w

section

variable {E : Surroundings} {α : Type} {w : World}

theorem Ends.returns {p : Command α} {R : α → World → Prop} {a : α} {w' : World}
    (h : Ends E p R w) (hr : Cmd.Returns E p w a w') : R a w' :=
  Cmd.wp_returns hr h

theorem ends_write {change : World → World} {R : Unit → World → Prop} (h : R () (change w)) :
    Ends E (atomicOwnerWrite change) R w :=
  wp_atomicOwnerWrite trivial (fun _ _ => trivial) (fun _ _ => trivial) h

theorem ends_lift {x : Except CredentialError α} {R : α → World → Prop}
    (h : ∀ a, x = .ok a → R a w) : Ends E (liftM (lift x)) R w :=
  wp_lift (fun _ _ => trivial) h

theorem ends_probe (p : Probe α) {R : α → World → Prop}
    (h : ∀ a, Cmd.Returns E p.1 w a w → R a w) : Ends E (liftM p) R w :=
  Probe.wp p trivial (fun _ _ => trivial) h

theorem ends_map {β : Type} {p : Command α} {f : α → β} {Q : α → World → Prop}
    {R : β → World → Prop} (h : Ends E p Q w) (hR : ∀ a w', Q a w' → R (f a) w') :
    Ends E (do pure (f (← p))) R w := by
  rw [Ends, Cmd.wp_bind]
  exact Cmd.wp_post h hR

end

/-! ## Single writers -/

section

variable {E : Surroundings} {w : World}

theorem ends_save {c : CommunityCredential} :
    Ends E (save P c) (fun _ w' => w'.store.loadForRotation P = .ok c) w := by
  simp only [save, Cmd.wp_bind, Cmd.wp_ite, wp_fail, implies_true, true_and]
  intro hv hs
  refine ends_write ?_
  rw [not_not] at hv
  simp only [Store.loadForRotation, Store.loadCredential, stored_store,
    ownerFile_some (f := fun c : CommunityCredential => c.toJson.size) (Nat.not_lt.mp hs), hv,
    not_true_eq_false, ↓reduceIte]

theorem ends_saveIdentityMetadata {identity : DeviceIdentity} {serverUrl : String} :
    Ends E (saveIdentityMetadata P identity serverUrl) (fun _ w' => ∃ url,
      canonicalServerUrl P serverUrl = .ok url ∧ w'.store.loadIdentityMetadata P =
        .ok ⟨1, identity.deviceId, url, identity.releaseProfile, identity.credentialProfile⟩) w := by
  simp only [saveIdentityMetadata, Cmd.wp_bind]
  refine ends_lift ?_
  intro url hurl
  simp only [Cmd.wp_bind, Cmd.wp_ite, wp_fail, implies_true, true_and]
  intro hv
  refine ends_write ⟨url, hurl, ?_⟩
  rw [not_not] at hv
  simp only [Store.loadIdentityMetadata, stored_store,
    ownerFile_some (f := fun m : StoredIdentityMetadata => m.toJson.size) (size_metadata P hv),
    hv, not_true_eq_false, ↓reduceIte]

theorem ends_saveActiveBinding {b : ActiveBinding} :
    Ends E (saveActiveBinding b) (fun _ w' => w'.store.loadActiveBinding b.deviceId = .ok b) w := by
  simp only [saveActiveBinding, Cmd.wp_bind, Cmd.wp_ite, wp_fail, implies_true, true_and]
  intro hv
  refine ends_write ?_
  rw [not_not] at hv
  simp only [Store.loadActiveBinding, stored_store,
    ownerFile_some (f := fun b : ActiveBinding => b.toJson.size) (size_activeBinding hv),
    hv, ne_eq, not_true_eq_false, ↓reduceIte]

theorem ends_writeLocalAdmission {r : LocalAdmissionRecord} :
    Ends E (writeLocalAdmission r) (fun _ w' => w'.store.loadLocalAdmission = .ok r) w := by
  simp only [writeLocalAdmission, Cmd.wp_bind, Cmd.wp_ite, wp_fail, implies_true, true_and]
  intro hv
  refine ends_write ?_
  rw [not_not] at hv
  have hs := size_localAdmissionRecord hv
  simp only [Store.loadLocalAdmission, stored_store,
    ownerFile_some (f := fun r : LocalAdmissionRecord => r.toJson.size)
      (hs.trans (by decide)), Nat.not_lt.mpr hs, hv, not_true_eq_false, ↓reduceIte]

/-- What the gate says once it is closed or ready. -/
def NoBinding (state : String) (r : LocalAdmissionRecord) : Prop :=
  r.version = 1 ∧ r.state = state ∧ r.bindingId = none ∧ r.bindingGeneration = none

theorem ends_localAdmissionRecord {state : String} :
    Ends E (do writeLocalAdmission (← localAdmissionRecord P state))
      (fun _ w' => ∃ r, NoBinding state r ∧ w'.store.loadLocalAdmission = .ok r) w := by
  rw [Ends, Cmd.wp_bind, localAdmissionRecord, probe_bind, Cmd.wp_bind]
  refine ends_probe _ ?_
  rintro ⟨deviceId, deviceGeneration⟩ -
  rw [probe_bind, Cmd.wp_bind, wp_now]
  refine ⟨trivial, fun t _ => ?_⟩
  rw [probe_pure, Cmd.wp_pure]
  exact Cmd.wp_post ends_writeLocalAdmission fun _ _ h => ⟨_, ⟨rfl, rfl, rfl, rfl⟩, h⟩

/-- What the gate says once it is open for a binding. -/
def OpenFor (b : ActiveBinding) (r : LocalAdmissionRecord) : Prop :=
  r.version = 1 ∧ r.state = LOCAL_ADMISSION_OPEN ∧ r.deviceId = some b.deviceId ∧
    r.bindingId = some b.bindingId ∧ r.bindingGeneration = some b.generation

theorem ends_openLocalAdmission {b : ActiveBinding} :
    Ends E (openLocalAdmission P b)
      (fun _ w' => ∃ r, OpenFor b r ∧ w'.store.loadLocalAdmission = .ok r) w := by
  simp only [openLocalAdmission, Cmd.wp_bind, Cmd.wp_ite, wp_fail, wp_theStore, implies_true,
    true_and]
  intro _
  cases w.store.loadForRotation P with
  | error e => trivial
  | ok c =>
    simp only [Cmd.wp_ite, Cmd.wp_bind, wp_fail, implies_true, true_and]
    intro hid
    rw [probe_attempt, Cmd.wp_attempt]
    refine wp_loadIdentity trivial (fun _ _ => trivial) ?_
    intro identity hd _ _ _ _
    rw [Cmd.wp_bind, wp_now]
    refine ⟨trivial, fun t _ => ?_⟩
    refine Cmd.wp_post ends_writeLocalAdmission fun _ _ h => ⟨_, ⟨rfl, rfl, ?_, rfl, rfl⟩, h⟩
    rw [hd, not_not.mp hid]

/-- `save_pending_registration` looks neither at the digests nor at the bytes of the key, and not
at the size of the text. -/
def PendingRegistration.Readable (p : PendingRegistration) : Prop :=
  isIdempotencyKey p.idempotencyKey = true ∧ isHexSha256 p.signingPublicKeySha256 = true ∧
    isHexSha256 p.encryptionPublicKeySha256 = true ∧ p.toJson.size ≤ MAX_CREDENTIAL_BYTES

theorem ends_savePendingRegistration {p : PendingRegistration} :
    Ends E (savePendingRegistration P p) (fun _ w' =>
      w'.store.readPendingRegistration P = .ok p ↔ p.Readable) w := by
  simp only [savePendingRegistration, Cmd.wp_bind, Cmd.wp_ite, wp_fail, implies_true, true_and]
  intro hv
  refine ends_write ?_
  rw [not_not] at hv
  have hr : readablePendingRegistration P p = true ↔ isIdempotencyKey p.idempotencyKey = true ∧
      isHexSha256 p.signingPublicKeySha256 = true ∧
      isHexSha256 p.encryptionPublicKeySha256 = true := by
    simp only [writablePendingRegistration, Bool.and_eq_true, and_assoc] at hv
    simp only [readablePendingRegistration, isHexSha256, Bool.and_eq_true, and_assoc, hv, true_and]
    tauto
  by_cases hs : p.toJson.size ≤ MAX_CREDENTIAL_BYTES
  · simp only [Store.readPendingRegistration, stored_store,
      ownerFile_some (f := fun p : PendingRegistration => p.toJson.size) hs,
      PendingRegistration.Readable, hs, and_true, ← hr]
    split
    · rename_i h
      exact iff_of_false (by simp) h
    · rename_i h
      exact iff_of_true rfl (not_not.mp h)
  · simp only [Store.readPendingRegistration, stored_store, PendingRegistration.Readable, hs,
      ownerFile_large (f := fun p : PendingRegistration => p.toJson.size) (not_le.mp hs),
      and_false, reduceCtorEq]

/-- `load_or_create_pending_rotation` takes the device as it is and the time as it is. -/
def RotationReadable (clock : UInt64) (current : DeviceIdentity) (s : Store) : Prop :=
  s.pendingRotation.isSome ∨
    isApiId current.deviceId = true ∧ current.generation ≠ 0 ∧ clock ≠ 0

theorem rotationRecord_valid {clock revision : UInt64} {key : String}
    {current next : DeviceIdentity} (hr : revision ≠ 0)
    (hn : next.generation = saturatingSucc current.generation)
    (hk : isIdempotencyKey key = true) :
    validPendingRotation (rotationRecord P current next revision key clock) = true ↔
      isApiId current.deviceId = true ∧ current.generation ≠ 0 ∧ clock ≠ 0 := by
  simp [validPendingRotation, rotationRecord, hr, hn, hk, isLowerSha256_public, and_assoc]

theorem readPendingRotation_some {s : Store} {r : PendingRotation}
    (h : s.pendingRotation = some r) :
    s.readPendingRotation = .ok (some r) ↔ validPendingRotation r = true := by
  rw [Store.readPendingRotation, h]
  constructor
  · intro hr
    by_contra hv
    rw [ownerFile] at hr
    split at hr
    · cases hr
    · cases hr
    · rename_i r' hr'
      split at hr'
      · cases hr'
      · cases hr'
        rw [if_pos hv] at hr
        cases hr
  · intro hv
    rw [ownerFile_some (f := fun r : PendingRotation => r.toJson.size)
      (size_pendingRotation hv)]
    exact if_neg (not_not.mpr hv)

theorem none_of_readPendingRotation {s : Store} (h : s.readPendingRotation = .ok none) :
    s.pendingRotation = none := by
  cases hs : s.pendingRotation with
  | none => rfl
  | some r =>
    rw [Store.readPendingRotation, hs, ownerFile] at h
    split at h
    · rename_i he
      split at he
      · cases he
      · cases he
    · cases h
    · split at h
      · cases h
      · cases h

theorem ends_loadOrCreate {clock : UInt64} (hE : ∀ w t, E w .now t → t = clock)
    {current next : DeviceIdentity} {revision : UInt64} {key : Option String} :
    Ends E (loadOrCreatePendingRotation P current next revision key)
      (fun r w' => w'.store.readPendingRotation = .ok (some r) ↔
        RotationReadable clock current w.store) w := by
  simp only [loadOrCreatePendingRotation, Cmd.wp_bind, Cmd.wp_ite, wp_fail, wp_theStore,
    implies_true, true_and]
  intro hrev hscope
  refine ends_lift ?_
  intro stored hread
  cases stored with
  | some existing =>
    have hsome : w.store.pendingRotation.isSome := by
      cases hs : w.store.pendingRotation with
      | none => simp [Store.readPendingRotation, hs, ownerFile] at hread
      | some r => rfl
    simp only [Cmd.wp_ite, Cmd.wp_bind, wp_fail, implies_true, true_and, Cmd.wp_pure]
    exact fun _ _ _ => iff_of_true hread (.inl hsome)
  | none =>
    have hnone := none_of_readPendingRotation hread
    simp only [Cmd.wp_ite, Cmd.wp_bind, wp_fail, implies_true, true_and]
    intro hn
    have hkey : ∀ k, Ends E (do
          if ¬ isIdempotencyKey k then fail .malformed
          let metadata := rotationRecord P current next revision k (← now)
          atomicOwnerWrite fun w => w.stored { w.store with pendingRotation := some metadata }
          pure metadata)
        (fun r w' => w'.store.readPendingRotation = .ok (some r) ↔
          RotationReadable clock current w.store) w := by
      intro k
      simp only [Cmd.wp_ite, Cmd.wp_bind, wp_fail, wp_now, implies_true, true_and]
      intro hk t ht
      refine ends_write ?_
      rw [hE w t ht, Cmd.wp_pure, readPendingRotation_some rfl,
        rotationRecord_valid P hrev (not_not.mp hn) (not_not.mp hk), RotationReadable, hnone]
      simp
    cases key with
    | some k => exact hkey k
    | none => exact ⟨trivial, fun k _ => hkey _⟩

end

/-! ## Policies -/

/-- What a policy says for itself once the machine has verified it. -/
structure LocalPolicy.WellFormed (p : LocalPolicy) : Prop where
  version : p.version = 1
  policyRevision : p.policyRevision ≠ 0
  allowlistRevision : p.allowlistRevision ≠ 0
  roots : p.allowlistRoots.length ≤ MAX_ALLOWLIST_ROOTS
  digest : p.allowlistRoots = [] ↔ p.allowlistRootsDigest = none
  bundle : p.learningBundleRoot.all isAbsolute = true

section

variable {E : Surroundings} {I : World → Prop} {F : Failure → World → Prop} {w : World}

theorem wp_verifyAllowlist {p : LocalPolicy} {R : Option (List String) → World → Prop} (hI : I w)
    (hF : ∀ e, F e w)
    (hR : (p.allowlistRoots = [] ↔ p.allowlistRootsDigest = none) → ∀ a, R a w) :
    Cmd.wp E I F (liftM p.verifyAllowlist) R w := by
  unfold LocalPolicy.verifyAllowlist
  split
  · rename_i hr
    simp only [probe_bind, probe_ite, Cmd.wp_bind, Cmd.wp_ite, wp_fail, hF, implies_true, true_and,
      probe_pure, Cmd.wp_pure]
    intro hd
    exact hR (by simpa [hr] using hd) none
  · rename_i hr
    rw [probe_bind, Cmd.wp_bind, wp_ask]
    refine ⟨hI, ?_⟩
    intro answer _
    cases answer with
    | none => exact hF _
    | some found =>
      simp only [probe_bind, probe_ite, Cmd.wp_bind, Cmd.wp_ite, wp_fail, hF, implies_true,
        true_and, probe_pure, Cmd.wp_pure]
      intro hd
      rw [not_or, not_not, not_not] at hd
      exact hR (by simp [hr, hd.2]) _

theorem wp_verifyLearningBundle {p : LocalPolicy} {skill runtime : Option String}
    {R : Option VerifiedLearningBundle → World → Prop} (hI : I w) (hF : ∀ e, F e w)
    (hR : p.learningBundleRoot.all isAbsolute = true → ∀ b, R b w) :
    Cmd.wp E I F (liftM (p.verifyLearningBundle skill runtime)) R w := by
  unfold LocalPolicy.verifyLearningBundle
  cases hb : p.learningBundleRoot with
  | none => exact hR (by rw [hb]; rfl) none
  | some root =>
    simp only [probe_bind, probe_ite, Cmd.wp_bind, Cmd.wp_ite, wp_fail, hF, implies_true, true_and,
      wp_ask]
    intro ha
    refine ⟨hI, ?_⟩
    intro answer _
    cases answer with
    | none => exact hF _
    | some found =>
      simp only [probe_bind, probe_ite, Cmd.wp_bind, Cmd.wp_ite, wp_fail, hF, implies_true,
        true_and, probe_pure, Cmd.wp_pure]
      intro _
      exact hR (by rw [hb]; exact not_not.mp ha) _

theorem wp_verify {p : LocalPolicy} {skill runtime : Option String}
    {R : VerifiedLocalPolicy → World → Prop} (hI : I w) (hF : ∀ e, F e w)
    (hR : p.WellFormed → ∀ v, R v w) : Cmd.wp E I F (liftM (p.verify skill runtime)) R w := by
  simp only [LocalPolicy.verify, probe_bind, probe_ite, Cmd.wp_bind, Cmd.wp_ite, wp_fail, hF,
    implies_true, true_and]
  intro hv
  simp only [not_or, not_not, not_lt] at hv
  obtain ⟨hver, hpol, hallow, hlen⟩ := hv
  refine wp_verifyAllowlist hI hF ?_
  intro hd _
  refine wp_verifyLearningBundle hI hF ?_
  intro hb _
  exact hR ⟨hver, hpol, hallow, hlen, hd, hb⟩ _

end

theorem checkedSucc_ne_zero {m n : UInt64} (h : checkedSucc m = some n) : n ≠ 0 := by
  unfold checkedSucc at h
  split at h
  · cases h
  · rename_i hm
    cases h
    intro hz
    refine hm (UInt64.toNat_inj.mp ?_)
    have h := congrArg UInt64.toNat hz
    have hlt := m.toNat_lt
    rw [UInt64.toNat_add] at h
    simp at h ⊢
    omega

/-- A later update can be prepared and committed, on a machine that has what it names. -/
def Updatable (w : World) : Prop :=
  ∃ (E : Surroundings) (root : String) (update : PreparedPolicyUpdate) (w' : World),
    Cmd.Returns E (prepareLearningBundleUpdate root).1 w update w ∧
      Cmd.Returns E (commitPolicyUpdate update) w () w'

/-- A machine that has the roots of a policy, and a bundle at the root directory. -/
def machine (p : LocalPolicy) : Surroundings := fun _ q a =>
  match q, a with
  | .now, a => a = (1 : UInt64)
  | .allowlist _, a => a = some (p.allowlistRoots, p.allowlistRootsDigest.getD "")
  | .learningBundle _, a => a = some ⟨"", "", "", ""⟩
  | .canonicalize _, a => a = some "/"
  | .write, a => a = .written
  | _, _ => True

theorem machine_answers (p : LocalPolicy) (w : World) (q : Query) : ∃ a, machine p w q a := by
  cases q
  case now => exact ⟨_, rfl⟩
  case deviceId => exact ⟨"", trivial⟩
  case signingKey => exact ⟨⟨List.replicate 32 0, rfl⟩, trivial⟩
  case encryptionKey => exact ⟨⟨List.replicate 32 0, rfl⟩, trivial⟩
  case idempotencyKey => exact ⟨⟨List.replicate 32 0, rfl⟩, trivial⟩
  case runtimes => exact ⟨[], trivial⟩
  case post => exact ⟨.sendFailed, trivial⟩
  case write => exact ⟨_, rfl⟩
  case allowlist => exact ⟨_, rfl⟩
  case learningBundle => exact ⟨_, rfl⟩
  case canonicalize => exact ⟨_, rfl⟩
  all_goals exact ⟨none, trivial⟩

section

variable {I : World → Prop} {F : Failure → World → Prop} {w : World} {p q : LocalPolicy}

theorem wp_verify_machine {R : VerifiedLocalPolicy → World → Prop} (hI : I w) (h : q.WellFormed)
    (hr : q.allowlistRoots = p.allowlistRoots) (hd : q.allowlistRootsDigest = p.allowlistRootsDigest)
    (hR : ∀ v, R v w) : Cmd.wp (machine p) I F (liftM (q.verify none none)) R w := by
  have hroots : ∀ {R : Option (List String) → World → Prop}, (∀ a, R a w) →
      Cmd.wp (machine p) I F (liftM q.verifyAllowlist) R w := by
    intro R hR
    unfold LocalPolicy.verifyAllowlist
    split
    · rename_i hn
      simp only [probe_pure, h.digest.mp hn, Option.isSome_none, Bool.false_eq_true, ↓reduceIte]
      exact hR none
    · rename_i hn
      rw [probe_bind, Cmd.wp_bind, wp_ask]
      refine ⟨hI, ?_⟩
      rintro answer rfl
      obtain ⟨digest, hs⟩ := Option.ne_none_iff_exists'.mp fun hd => hn (h.digest.mpr hd)
      simp only [← hr, ← hd, hs, Option.getD_some, ne_eq, not_true_eq_false, or_self, ↓reduceIte]
      exact hR _
  have hbundle : ∀ {R : Option VerifiedLearningBundle → World → Prop}, (∀ b, R b w) →
      Cmd.wp (machine p) I F (liftM (q.verifyLearningBundle none none)) R w := by
    intro R hR
    unfold LocalPolicy.verifyLearningBundle
    cases hb : q.learningBundleRoot with
    | none => exact hR none
    | some root =>
      have ha : isAbsolute root = true := by simpa [hb] using h.bundle
      simp only [ha, not_true_eq_false, ↓reduceIte, probe_bind, Cmd.wp_bind, wp_ask]
      refine ⟨hI, ?_⟩
      rintro answer rfl
      exact hR _
  simp only [LocalPolicy.verify, h.version, h.policyRevision, h.allowlistRevision,
    Nat.not_lt.mpr h.roots, ne_eq, not_true_eq_false, or_self, ↓reduceIte, probe_bind, Cmd.wp_bind]
  refine hroots fun _ => ?_
  refine hbundle fun _ => ?_
  exact hR _

end

/-- The machine commits an update of the policy that is stored. -/
theorem wp_commit_machine {p q r : LocalPolicy} {w : World}
    (hl : w.store.loadPolicyDocument = .ok q)
    (hs : checkedSucc q.policyRevision = some r.policyRevision) (hr : r.WellFormed)
    (hroots : r.allowlistRoots = p.allowlistRoots)
    (hdigest : r.allowlistRootsDigest = p.allowlistRootsDigest) :
    Cmd.wp (machine p) (fun _ => True) (fun _ _ => False) (commitPolicyUpdate ⟨q, r⟩)
      (fun _ w' => w'.store.policy = some r) w := by
  simp only [commitPolicyUpdate, Cmd.wp_bind, wp_theStore]
  refine wp_lift_ok hl ?_
  simp only [ne_eq, not_true_eq_false, ↓reduceIte, hs, Cmd.wp_bind]
  refine wp_verify_machine trivial hr hroots hdigest fun _ => ⟨trivial, ?_⟩
  rintro outcome rfl
  exact ⟨trivial, rfl⟩

theorem root_isAbsolute : isAbsolute "/" = true := by
  decide

/-- A policy that can be loaded, and whose revision is not the last one, can be updated. -/
theorem updatable_of_load {w : World} {p : LocalPolicy} (hl : w.store.loadPolicyDocument = .ok p)
    (hp : p.WellFormed) (hrev : p.policyRevision ≠ UInt64.ofNat (2 ^ 64 - 1)) : Updatable w := by
  have hs : checkedSucc p.policyRevision = some (p.policyRevision + 1) := if_neg hrev
  let next : LocalPolicy :=
    { p with policyRevision := p.policyRevision + 1, learningBundleRoot := some "/" }
  have hn : next.WellFormed := ⟨hp.version, checkedSucc_ne_zero hs, hp.allowlistRevision, hp.roots,
    hp.digest, root_isAbsolute⟩
  have hprepare : Cmd.wp (machine p) (fun _ => True) (fun _ _ => False)
      (liftM (prepareLearningBundleUpdate "/") : Command PreparedPolicyUpdate)
      (fun update w' => w' = w ∧ update = ⟨p, next⟩) w := by
    simp only [prepareLearningBundleUpdate, probe_bind, Cmd.wp_bind, wp_theStore]
    refine wp_lift_ok hl ?_
    refine wp_verify_machine trivial hp rfl rfl fun _ => ?_
    simp only [LocalPolicy.withLearningBundleRoot, probe_bind, Cmd.wp_bind, wp_ask]
    refine ⟨trivial, ?_⟩
    rintro answer rfl
    simp only [hs]
    exact wp_verify_machine trivial hn rfl rfl fun _ => ⟨rfl, rfl⟩
  obtain ⟨update, w1, h1, rfl, rfl⟩ := Cmd.exists_returns (machine_answers p) hprepare
  obtain ⟨_, w2, h2, _⟩ :=
    Cmd.exists_returns (machine_answers p) (wp_commit_machine hl hs hn rfl rfl)
  exact ⟨machine p, "/", ⟨p, next⟩, w2, h1, h2⟩

/-- `commit_policy_update` does not look at the size of its text, and goes to the last revision. -/
def LocalPolicy.Lasting (p : LocalPolicy) : Prop :=
  p.toJson.size ≤ MAX_CREDENTIAL_BYTES ∧ p.policyRevision ≠ UInt64.ofNat (2 ^ 64 - 1)

/-- The last revision is not left again. -/
theorem not_updatable {w : World} {p : LocalPolicy} (hl : w.store.loadPolicyDocument = .ok p)
    (hrev : p.policyRevision = UInt64.ofNat (2 ^ 64 - 1)) : ¬ Updatable w := by
  rintro ⟨E, root, update, w', -, hc⟩
  refine Cmd.wp_returns (I := fun _ => True) (F := fun _ _ => True) (R := fun _ _ => False) hc ?_
  simp only [commitPolicyUpdate, Cmd.wp_bind, wp_theStore]
  refine wp_lift_ok hl ?_
  simp only [Cmd.wp_ite, wp_fail, Cmd.wp_bind, implies_true, true_and]
  intro _
  rw [checkedSucc, if_pos hrev]
  trivial

theorem not_updatable_of_error {w : World} {e : CredentialError}
    (hl : w.store.loadPolicyDocument = .error e) : ¬ Updatable w := by
  rintro ⟨E, root, update, w', -, hc⟩
  refine Cmd.wp_returns (I := fun _ => True) (F := fun _ _ => True) (R := fun _ _ => False) hc ?_
  simp only [commitPolicyUpdate, Cmd.wp_bind, wp_theStore]
  refine wp_lift (fun _ _ => trivial) ?_
  intro p hp
  rw [hl] at hp
  cases hp

theorem ends_commitPolicyUpdate {E : Surroundings} {w : World} {update : PreparedPolicyUpdate} :
    Ends E (commitPolicyUpdate update) (fun _ w' =>
      (w'.store.loadPolicyDocument = .ok update.next ∧ Updatable w') ↔ update.next.Lasting) w := by
  simp only [commitPolicyUpdate, Cmd.wp_bind, wp_theStore]
  refine ends_lift ?_
  intro current _
  simp only [Cmd.wp_ite, wp_fail, Cmd.wp_bind, implies_true, true_and]
  intro _
  cases checkedSucc current.policyRevision with
  | none => trivial
  | some revision =>
    simp only [Cmd.wp_ite, wp_fail, Cmd.wp_bind, implies_true, true_and]
    intro _
    refine wp_verify trivial (fun _ => trivial) ?_
    intro hwf _
    refine ends_write ?_
    by_cases hs : update.next.toJson.size ≤ MAX_CREDENTIAL_BYTES
    · have hl : ((w.logged (.replacedPolicy update.next)).stored
          { w.store with policy := some update.next }).store.loadPolicyDocument =
          .ok update.next := by
        rw [Store.loadPolicyDocument, stored_store,
          ownerFile_some (f := fun p : LocalPolicy => p.toJson.size) hs]
      constructor
      · exact fun h => ⟨hs, fun hrev => not_updatable hl hrev h.2⟩
      · exact fun h => ⟨hl, updatable_of_load hl hwf h.2⟩
    · have hl : ((w.logged (.replacedPolicy update.next)).stored
          { w.store with policy := some update.next }).store.loadPolicyDocument =
          .error .tooLarge := by
        rw [Store.loadPolicyDocument, stored_store,
          ownerFile_large (f := fun p : LocalPolicy => p.toJson.size) (not_le.mp hs)]
      rw [hl]
      exact iff_of_false (fun h => by cases h.1) fun h => hs h.1

/-! ## All writers -/

namespace Write

/-- The reader of what has been written returns it. -/
def ReadBack (result : Option PendingRotation) (w : World) : Write → Prop
  | credential c => w.store.loadForRotation P = .ok c
  | identityMetadata identity serverUrl => ∃ url, canonicalServerUrl P serverUrl = .ok url ∧
      w.store.loadIdentityMetadata P =
        .ok ⟨1, identity.deviceId, url, identity.releaseProfile, identity.credentialProfile⟩
  | activeBinding b => w.store.loadActiveBinding b.deviceId = .ok b
  | pendingRegistration p => w.store.readPendingRegistration P = .ok p
  | pendingRotation _ _ _ _ => ∃ r, result = some r ∧ w.store.readPendingRotation = .ok (some r)
  | openAdmission b => ∃ r, OpenFor b r ∧ w.store.loadLocalAdmission = .ok r
  | closeAdmission =>
    ∃ r, NoBinding LOCAL_ADMISSION_CLOSED r ∧ w.store.loadLocalAdmission = .ok r
  | readyAdmission =>
    ∃ r, NoBinding LOCAL_ADMISSION_READY r ∧ w.store.loadLocalAdmission = .ok r
  | policy update => w.store.loadPolicyDocument = .ok update.next ∧ Updatable w

/-- What a writer would have to check besides what it does. -/
def Fits (clock : UInt64) (s : Store) : Write → Prop
  | pendingRegistration p => p.Readable
  | pendingRotation current _ _ _ => RotationReadable clock current s
  | policy update => update.next.Lasting
  | _ => True

theorem ends_run {E : Surroundings} {clock : UInt64} (hE : ∀ w t, E w .now t → t = clock)
    (x : Write) (w : World) :
    Ends E (x.run P) (fun r w' => x.ReadBack P r w' ↔ x.Fits clock w.store) w := by
  cases x with
  | credential c => exact ends_map (ends_save P) fun _ _ h => iff_of_true h trivial
  | identityMetadata identity serverUrl =>
    exact ends_map (ends_saveIdentityMetadata P) fun _ _ h => iff_of_true h trivial
  | activeBinding b => exact ends_map ends_saveActiveBinding fun _ _ h => iff_of_true h trivial
  | pendingRegistration p => exact ends_map (ends_savePendingRegistration P) fun _ _ h => h
  | pendingRotation current next revision key =>
    refine ends_map (ends_loadOrCreate P hE) ?_
    intro r w' h
    refine Iff.trans ?_ h
    constructor
    · rintro ⟨r', hr, hl⟩
      cases hr
      exact hl
    · exact fun hl => ⟨r, rfl, hl⟩
  | openAdmission b => exact ends_map (ends_openLocalAdmission P) fun _ _ h => iff_of_true h trivial
  | closeAdmission => exact ends_map (ends_localAdmissionRecord P) fun _ _ h => iff_of_true h trivial
  | readyAdmission => exact ends_map (ends_localAdmissionRecord P) fun _ _ h => iff_of_true h trivial
  | policy update => exact ends_map ends_commitPolicyUpdate fun _ _ h => h

end Write

/-- The files of the records as the strict reader sees them. -/
def TextsRead (s : Store) : Prop :=
  CommunityCredential.format.readOwnerFile .malformed
      (s.credential.map CommunityCredential.format.text) =
    ownerFile (fun c => c.toJson.size) s.credential ∧
  StoredIdentityMetadata.format.readOwnerFile .malformed
      (s.identityMetadata.map StoredIdentityMetadata.format.text) =
    ownerFile (fun m => m.toJson.size) s.identityMetadata ∧
  ActiveBinding.format.readOwnerFile .malformed
      (s.activeBinding.map ActiveBinding.format.text) =
    ownerFile (fun b => b.toJson.size) s.activeBinding ∧
  PendingRegistration.format.readOwnerFile .malformed
      (s.pendingRegistration.map PendingRegistration.format.text) =
    ownerFile (fun p => p.toJson.size) s.pendingRegistration ∧
  PendingRotation.format.readOwnerFile .malformed
      (s.pendingRotation.map PendingRotation.format.text) =
    ownerFile (fun r => r.toJson.size) s.pendingRotation ∧
  LocalAdmissionRecord.format.readOwnerFile .malformed
      (s.localAdmission.map LocalAdmissionRecord.format.text) =
    ownerFile (fun r => r.toJson.size) s.localAdmission ∧
  LocalPolicy.format.readOwnerFile .policyInvalid (s.policy.map LocalPolicy.format.text) =
    ownerFile (fun p => p.toJson.size) s.policy

theorem textsRead (s : Store) : TextsRead s :=
  ⟨Format.readOwnerFile_text _ _ _, Format.readOwnerFile_text _ _ _,
    Format.readOwnerFile_text _ _ _, Format.readOwnerFile_text _ _ _,
    Format.readOwnerFile_text _ _ _, Format.readOwnerFile_text _ _ _,
    Format.readOwnerFile_text _ _ _⟩

/-- A writer that returns has written what its reader returns, exactly where the value fits. -/
theorem read_back_iff {E : Surroundings} {clock : UInt64} (hE : ∀ w t, E w .now t → t = clock)
    {x : Write} {w w' : World} {r : Option PendingRotation}
    (h : Cmd.Returns E (x.run P) w r w') :
    (x.ReadBack P r w' ↔ x.Fits clock w.store) ∧ TextsRead w'.store :=
  ⟨(Write.ends_run P hE x w).returns h, textsRead w'.store⟩

set_option maxRecDepth 4000

/-! ## Two runs -/

def emptyWorld : World := ⟨Store.empty, []⟩

/-- A platform none of whose crates is asked anything. -/
def idlePlatform : Platform :=
  ⟨fun _ => none, id, id, fun _ => ⟨List.replicate 32 0, rfl⟩, fun _ => none⟩

/-- The first policy with a root. -/
def workPolicy : LocalPolicy where
  version := 1
  policyRevision := 2
  allowlistRevision := 2
  allowlistRoots := ["/work"]
  allowlistRootsDigest :=
    some "sha256:246c795d27450e85e4a22760903955fd176c63c6235318001167ad74147389fa"
  learningBundleRoot := none

theorem workPolicy_wellFormed : workPolicy.WellFormed :=
  ⟨rfl, by decide, by decide, by decide, by simp [workPolicy], rfl⟩

/-- It is committed, read back, and can be updated again. -/
theorem policy_read_back : ∃ w,
    (Write.policy ⟨default, workPolicy⟩).ReadBack idlePlatform none w ∧ TextsRead w.store := by
  have hrun : Cmd.wp (machine workPolicy) (fun _ => True) (fun _ _ => False)
      ((Write.policy ⟨default, workPolicy⟩).run idlePlatform) (fun r _ => r = none) emptyWorld := by
    have hempty : emptyWorld.store.loadPolicyDocument = .ok default := rfl
    simp only [Write.run, Cmd.wp_bind, Cmd.wp_pure]
    exact Cmd.wp_post (wp_commit_machine hempty rfl workPolicy_wellFormed rfl rfl)
      fun _ _ _ => trivial
  obtain ⟨_, w, hr, rfl⟩ := Cmd.exists_returns (machine_answers workPolicy) hrun
  have hclock : ∀ w t, machine workPolicy w .now t → t = (1 : UInt64) := fun _ _ h => h
  obtain ⟨hiff, htexts⟩ := read_back_iff idlePlatform hclock hr
  exact ⟨w, hiff.mpr ⟨by decide, by decide⟩, htexts⟩

/-- Roots of four long names each; their list takes more than the 64 KiB of a readable file. -/
def longRoot (i : Nat) : String :=
  String.ofList ((List.replicate 4 ('/' :: List.replicate 240 'd')).flatten ++
    '/' :: Nat.toDigits 10 i)

def longPolicy : LocalPolicy where
  version := 1
  policyRevision := 2
  allowlistRevision := 2
  allowlistRoots := (List.range' 10 70).map longRoot
  allowlistRootsDigest :=
    some "sha256:246c795d27450e85e4a22760903955fd176c63c6235318001167ad74147389fa"
  learningBundleRoot := none

theorem longPolicy_wellFormed : longPolicy.WellFormed := by
  refine ⟨rfl, by decide, by decide, ?_, ?_, rfl⟩
  · simp [longPolicy, MAX_ALLOWLIST_ROOTS]
  · simp [longPolicy]

theorem size_strs_ge {values : List String} {n : Nat}
    (h : ∀ value ∈ values, n ≤ (utf8 value).length) : values.length * n ≤ size (strs values) := by
  have hsum : values.length * n ≤ elemsSize (values.map .str) := by
    induction values with
    | nil => simp
    | cons value values ih =>
      have h1 := h value List.mem_cons_self
      have h2 := (escapedSize_bounds value).1
      have ih := ih fun v hv => h v (List.mem_cons_of_mem _ hv)
      simp only [elemsSize, List.map_cons, List.sum_cons, size_str, List.length_cons,
        Nat.succ_mul] at ih ⊢
      omega
  rw [strs, size_arr]
  omega

theorem length_le_utf8Len (cs : List Char) : cs.length ≤ utf8Len cs := by
  induction cs with
  | nil => exact Nat.zero_le _
  | cons c cs ih =>
    have hc := c.utf8Size_pos
    rw [utf8Len_cons, List.length_cons]
    omega

theorem size_roots_le (p : LocalPolicy) : size (strs p.allowlistRoots) ≤ p.toJson.size := by
  rw [LocalPolicy.toJson, size_obj]
  simp only [membersSize, List.map_cons, List.sum_cons]
  omega

theorem length_ofList_append {n : Nat} {cs ds : List Char} (h : cs.length = n) :
    n ≤ (utf8 (String.ofList (cs ++ ds))).length := by
  have hlen := length_le_utf8Len (cs ++ ds)
  rw [utf8_ofList_length]
  rw [List.length_append] at hlen
  omega

theorem longRoot_length (i : Nat) : 964 ≤ (utf8 (longRoot i)).length := by
  refine length_ofList_append ?_
  rw [List.length_flatten, List.map_replicate, List.length_cons, List.length_replicate]
  rfl

theorem longPolicy_tooLarge : MAX_CREDENTIAL_BYTES < longPolicy.toJson.size := by
  have hlong : ∀ root ∈ longPolicy.allowlistRoots, 964 ≤ (utf8 root).length := by
    intro root hroot
    obtain ⟨i, -, rfl⟩ := List.mem_map.mp hroot
    exact longRoot_length i
  have hcount : longPolicy.allowlistRoots.length = 70 := by
    rw [longPolicy, List.length_map, List.length_range']
  have hsize := (size_strs_ge hlong).trans (size_roots_le longPolicy)
  rw [hcount] at hsize
  exact Nat.lt_of_lt_of_le (by decide) hsize

theorem wp_verify_default {E : Surroundings} {I : World → Prop} {F : Failure → World → Prop}
    {w : World} {R : VerifiedLocalPolicy → World → Prop} :
    Cmd.wp E I F (liftM ((default : LocalPolicy).verify none none)) R w =
      R ⟨1, 1, none, none, none⟩ w :=
  rfl

/-- An update that is prepared and committed can leave a policy that no command can read. -/
theorem oversized_policy_locks_out :
    Cmd.Returns (machine longPolicy) (prepareAllowlistUpdate longPolicy.allowlistRoots).1 emptyWorld
      ⟨default, longPolicy⟩ emptyWorld ∧
    ∃ w, Cmd.Returns (machine longPolicy) (commitPolicyUpdate ⟨default, longPolicy⟩) emptyWorld () w ∧
      w.store.loadPolicyDocument = .error .tooLarge ∧ ¬ Updatable w := by
  have hempty : emptyWorld.store.loadPolicyDocument = .ok default := rfl
  have hroots : longPolicy.allowlistRoots ≠ [] := nofun
  have hcount : ¬ MAX_ALLOWLIST_ROOTS < longPolicy.allowlistRoots.length :=
    Nat.not_lt.mpr longPolicy_wellFormed.roots
  have hprepare : Cmd.wp (machine longPolicy) (fun _ => True) (fun _ _ => False)
      (liftM (prepareAllowlistUpdate longPolicy.allowlistRoots) : Command PreparedPolicyUpdate)
      (fun update w' => w' = emptyWorld ∧ update = ⟨default, longPolicy⟩) emptyWorld := by
    simp only [prepareAllowlistUpdate, probe_bind, Cmd.wp_bind, wp_theStore]
    refine wp_lift_ok hempty ?_
    rw [wp_verify_default, LocalPolicy.withAllowlistRoots]
    simp only [hroots, hcount, or_self, ↓reduceIte]
    have hr : checkedSucc (default : LocalPolicy).allowlistRevision = some 2 := rfl
    have hp : checkedSucc (default : LocalPolicy).policyRevision = some 2 := rfl
    simp only [hr, probe_bind, Cmd.wp_bind, wp_ask]
    refine ⟨trivial, ?_⟩
    rintro answer rfl
    simp only [hp]
    exact wp_verify_machine trivial longPolicy_wellFormed rfl rfl fun _ => ⟨rfl, rfl⟩
  obtain ⟨update, w1, h1, rfl, rfl⟩ := Cmd.exists_returns (machine_answers longPolicy) hprepare
  obtain ⟨_, w2, h2, hstored⟩ := Cmd.exists_returns (machine_answers longPolicy)
    (wp_commit_machine hempty rfl longPolicy_wellFormed rfl rfl)
  have hl : w2.store.loadPolicyDocument = .error .tooLarge := by
    rw [Store.loadPolicyDocument, hstored,
      ownerFile_large (f := fun p : LocalPolicy => p.toJson.size) longPolicy_tooLarge]
  exact ⟨h1, w2, h2, hl, not_updatable_of_error hl⟩

end Device
end EgoBridge
