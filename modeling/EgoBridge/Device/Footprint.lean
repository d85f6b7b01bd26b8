import EgoBridge.Device.Commands

/-!
# Device.Footprint

What the steps of a command do to the store and to the log, whatever it is told.

* `Change`  — the kinds of steps, each with what the writer has checked.
* `Changes` — a command whose steps are of given kinds.
-/

namespace EgoBridge
namespace Device

open Protocol Json Crash

variable (P : Platform)

inductive StoreFile where
  | credential
  | key
  | identityMetadata
  | pendingKeyRotation
  | pendingRotation
  | pendingRegistration
  | policy
  | activeBinding
  | localAdmission
  deriving DecidableEq

def Store.without (s : Store) : StoreFile → Store
  | .credential => { s with credential := none }
  | .key => { s with key := none }
  | .identityMetadata => { s with identityMetadata := none }
  | .pendingKeyRotation => { s with pendingKeyRotation := none }
  | .pendingRotation => { s with pendingRotation := none }
  | .pendingRegistration => { s with pendingRegistration := none }
  | .policy => { s with policy := none }
  | .activeBinding => { s with activeBinding := none }
  | .localAdmission => { s with localAdmission := none }

inductive Kind where
  | write (file : StoreFile)
  | remove (file : StoreFile)
  | sent
  | issued
  | confirmed
  deriving DecidableEq

/-- A file is replaced. -/
def Written (w w' : World) : StoreFile → Prop
  | .credential => ∃ c, validCommunityCredential P c none = true ∧
      c.toJson.size ≤ MAX_CREDENTIAL_BYTES ∧
      w' = (w.logged (.saved c)).stored { w.store with credential := some c }
  | .key => ∃ i, w' =
      (w.logged (.installed i)).stored { w.store with key := some (encodeIdentity i) }
  | .identityMetadata => ∃ m, validStoredIdentityMetadata P m = true ∧
      w' = w.stored { w.store with identityMetadata := some m }
  | .pendingKeyRotation => ∃ i : DeviceIdentity,
      w' = w.stored { w.store with pendingKeyRotation := some (encodeIdentity i) }
  | .pendingRotation => ∃ r, w' = w.stored { w.store with pendingRotation := some r }
  | .pendingRegistration => ∃ p, writablePendingRegistration P p = true ∧
      w' = w.stored { w.store with pendingRegistration := some p }
  | .policy => ∃ p, w' =
      (w.logged (.replacedPolicy p)).stored { w.store with policy := some p }
  | .activeBinding => ∃ b, validActiveBinding b = true ∧
      w' = w.stored { w.store with activeBinding := some b }
  | .localAdmission => ∃ r, validLocalAdmissionRecord r = true ∧
      w' = w.stored { w.store with localAdmission := some r }

def Change (w w' : World) : Kind → Prop
  | .write file => Written P w w' file
  | .remove file => w' = w.stored (w.store.without file)
  | .sent => ∃ request registration, w' = w.logged (.sent request registration)
  | .issued => ∃ c, w' = w.logged (.issued c)
  | .confirmed => ∃ c, w' = w.logged (.confirmed c)

/-- The file a step of the kind touches. -/
def Kind.file : Kind → Option StoreFile
  | .write file => some file
  | .remove file => some file
  | _ => none

theorem Change.without {P} {w w' : World} {k : Kind} (h : Change P w w' k) :
    w'.store = w.store ∨ ∃ f, k.file = some f ∧ w'.store.without f = w.store.without f := by
  cases k with
  | write file =>
    refine .inr ⟨file, rfl, ?_⟩
    cases file with
    | credential =>
      obtain ⟨c, -, -, rfl⟩ := h
      rfl
    | identityMetadata | pendingRegistration | activeBinding | localAdmission =>
      obtain ⟨x, -, rfl⟩ := h
      rfl
    | _ =>
      obtain ⟨x, rfl⟩ := h
      rfl
  | remove file =>
    cases h
    refine .inr ⟨file, rfl, ?_⟩
    cases file <;> rfl
  | sent =>
    obtain ⟨request, registration, rfl⟩ := h
    exact .inl rfl
  | issued | confirmed =>
    obtain ⟨c, rfl⟩ := h
    exact .inl rfl

theorem Change.policy {P} {w w' : World} {k : Kind} (h : Change P w w' k)
    (hk : k.file ≠ some .policy) : w'.store.policy = w.store.policy := by
  rcases h.without with h | ⟨f, hf, h⟩
  · rw [h]
  · cases f with
    | policy => exact absurd hf hk
    | _ => exact congrArg (·.policy) h

theorem Change.activeBinding {P} {w w' : World} {k : Kind} (h : Change P w w' k)
    (hk : k.file ≠ some .activeBinding) : w'.store.activeBinding = w.store.activeBinding := by
  rcases h.without with h | ⟨f, hf, h⟩
  · rw [h]
  · cases f with
    | activeBinding => exact absurd hf hk
    | _ => exact congrArg (·.activeBinding) h

/-- Every step of the command is of one of the kinds. -/
def Changes {α : Type} (kinds : List Kind) (p : Command α) : Prop :=
  p.Within fun w w' => ∃ k ∈ kinds, Change P w w' k

/-! ## Parts -/

section

variable {P} {kinds : List Kind} {α β : Type}

theorem Changes.bind {p : Command α} {f : α → Command β} (hp : Changes P kinds p)
    (hf : ∀ a, Changes P kinds (f a)) : Changes P kinds (p >>= f) :=
  Cmd.Within.bind hp hf

theorem Changes.attempt {p : Command α} (hp : Changes P kinds p) : Changes P kinds p.attempt :=
  Cmd.Within.attempt hp

theorem Changes.ite {c : Prop} [Decidable c] {p q : Command α} (hp : Changes P kinds p)
    (hq : Changes P kinds q) : Changes P kinds (if c then p else q) :=
  Cmd.Within.ite hp hq

theorem Changes.pure (a : α) : Changes P kinds (pure a : Command α) := trivial

theorem Changes.probe (p : Probe α) : Changes P kinds (liftM p : Command α) :=
  Cmd.within_of_still p.2

theorem Changes.record {k : Kind} {event : Event} (hk : k ∈ kinds)
    (h : ∀ w, Change P w (w.logged event) k) : Changes P kinds (record event) :=
  Cmd.Within.update fun w => ⟨k, hk, h w⟩

theorem Changes.write {file : StoreFile} {change : World → World} (hk : .write file ∈ kinds)
    (h : ∀ w, Written P w (change w) file) : Changes P kinds (atomicOwnerWrite change) := by
  have hw : ∀ w, ∃ k ∈ kinds, Change P w (change w) k := fun w => ⟨_, hk, h w⟩
  intro outcome
  cases outcome with
  | written => exact ⟨hw, trivial⟩
  | lost f => trivial
  | kept f => exact ⟨hw, trivial⟩

theorem Changes.remove {file : StoreFile} {change : Store → Store} (hk : .remove file ∈ kinds)
    (h : ∀ s, change s = s.without file) :
    Changes P kinds (removeOwnerFileIfPresent change) := by
  intro outcome
  cases outcome with
  | none => exact ⟨fun w => ⟨_, hk, congrArg w.stored (h w.store)⟩, trivial⟩
  | some f => trivial

/-- A check that ends the command. -/
theorem Changes.check {c : Prop} [Decidable c] {failure : Failure} {f : PUnit → Command α}
    (h : ¬ c → Changes P kinds (f ⟨⟩)) :
    Changes P kinds (if c then liftM (raise failure : Probe PUnit) >>= f else f ⟨⟩) := by
  split
  · trivial
  · rename_i hc
    exact h hc

theorem changes_savePendingRegistration {p : PendingRegistration}
    (hk : .write .pendingRegistration ∈ kinds) : Changes P kinds (savePendingRegistration P p) := by
  unfold savePendingRegistration
  refine Changes.check fun hv => ?_
  exact .write hk fun w => ⟨p, not_not.mp hv, rfl⟩

theorem changes_recordPendingRegistrationError {code : Option String}
    (hk : .write .pendingRegistration ∈ kinds) :
    Changes P kinds (recordPendingRegistrationError P code) := by
  unfold recordPendingRegistrationError
  refine .bind (.probe _) fun s => ?_
  cases s.readPendingRegistration P with
  | error e => exact .pure _
  | ok pending => exact changes_savePendingRegistration hk

theorem changes_saveIdentityMetadata {identity : DeviceIdentity} {serverUrl : String}
    (hk : .write .identityMetadata ∈ kinds) :
    Changes P kinds (saveIdentityMetadata P identity serverUrl) := by
  unfold saveIdentityMetadata
  refine .bind (.probe _) fun url => ?_
  refine .check fun hv => ?_
  exact .write hk fun w => ⟨_, not_not.mp hv, rfl⟩

theorem changes_save {c : CommunityCredential} (hk : .write .credential ∈ kinds) :
    Changes P kinds (save P c) := by
  unfold save
  -- Unification would compute the size of the text.
  generalize hn : c.toJson.size = n
  refine .check fun hv => ?_
  refine .check fun hs => ?_
  refine .write hk fun w => ⟨c, not_not.mp hv, ?_, rfl⟩
  rw [hn]
  exact Nat.not_lt.mp hs

theorem changes_saveIdentity {identity : DeviceIdentity} (hk : .write .key ∈ kinds) :
    Changes P kinds (saveIdentity identity) :=
  .write hk fun _ => ⟨identity, rfl⟩

theorem changes_saveActiveBinding {b : ActiveBinding} (hk : .write .activeBinding ∈ kinds) :
    Changes P kinds (saveActiveBinding b) := by
  unfold saveActiveBinding
  refine .check fun hv => ?_
  exact .write hk fun w => ⟨b, not_not.mp hv, rfl⟩

theorem changes_clearActiveBinding (hk : .remove .activeBinding ∈ kinds) :
    Changes P kinds clearActiveBinding :=
  .remove hk fun _ => rfl

theorem changes_clearPendingRegistration (hk : .remove .pendingRegistration ∈ kinds) :
    Changes P kinds clearPendingRegistration :=
  .remove hk fun _ => rfl

theorem changes_writeLocalAdmission {r : LocalAdmissionRecord}
    (hk : .write .localAdmission ∈ kinds) : Changes P kinds (writeLocalAdmission r) := by
  unfold writeLocalAdmission
  refine .check fun hv => ?_
  exact .write hk fun w => ⟨r, not_not.mp hv, rfl⟩

theorem changes_closeLocalAdmission (hk : .write .localAdmission ∈ kinds) :
    Changes P kinds (closeLocalAdmission P) :=
  .bind (.probe _) fun _ => changes_writeLocalAdmission hk

theorem changes_openLocalAdmission {b : ActiveBinding} (hk : .write .localAdmission ∈ kinds) :
    Changes P kinds (openLocalAdmission P b) := by
  unfold openLocalAdmission
  refine .check fun _ => ?_
  refine .bind (.probe _) fun s => ?_
  cases s.loadForRotation P with
  | error e => exact .probe _
  | ok credential =>
    refine .check fun _ => ?_
    refine .bind (.probe _) fun loaded => ?_
    cases loaded with
    | error e => exact .probe _
    | ok identity => exact .bind (.probe _) fun _ => changes_writeLocalAdmission hk

theorem changes_commitPolicyUpdate {update : PreparedPolicyUpdate} (hk : .write .policy ∈ kinds) :
    Changes P kinds (commitPolicyUpdate update) := by
  unfold commitPolicyUpdate
  refine .bind (.probe _) fun s => ?_
  refine .bind (.probe _) fun current => ?_
  refine .check fun _ => ?_
  cases checkedSucc current.policyRevision with
  | none => exact .probe _
  | some revision =>
    refine .check fun _ => ?_
    exact .bind (.probe _) fun _ => .write hk fun w => ⟨update.next, rfl⟩

theorem changes_openBinding {b : ActiveBinding} (hw : .write .activeBinding ∈ kinds)
    (hr : .remove .activeBinding ∈ kinds) (hk : .write .localAdmission ∈ kinds) :
    Changes P kinds (openBinding P b) := by
  unfold openBinding
  refine .bind (changes_saveActiveBinding hw) fun _ => ?_
  refine .bind (.attempt (changes_openLocalAdmission hk)) fun result => ?_
  cases result with
  | ok _ => exact .pure _
  | error e =>
    refine .bind (.attempt (changes_clearActiveBinding hr)) fun _ => ?_
    exact .bind (.attempt (changes_closeLocalAdmission hk)) fun _ => .probe _

theorem changes_persistActiveBinding {command : Lifecycle} {deviceId expectedTaskSpace : String}
    {response : Json} (hc : .confirmed ∈ kinds) (hw : .write .activeBinding ∈ kinds)
    (hr : .remove .activeBinding ∈ kinds) (hk : .write .localAdmission ∈ kinds) :
    Changes P kinds (persistActiveBinding P command deviceId expectedTaskSpace response) := by
  unfold persistActiveBinding
  refine .bind (.probe _) fun b => ?_
  refine .ite (.bind (.record hc fun _ => ⟨_, rfl⟩) fun _ => ?_) ?_
  all_goals exact changes_openBinding hw hr hk

/-! ## Requests -/

theorem changes_postWithIdempotency {client : DeviceApiClient} {path : String} {payload : Json}
    {key : Option String} {registration : Option Registration} (hk : .sent ∈ kinds) :
    Changes P kinds (client.postWithIdempotency path payload key registration) :=
  .bind (.record hk fun _ => ⟨_, _, rfl⟩) fun _ => .bind (.probe _) fun _ => .probe _

theorem changes_addProofForGeneration {client : DeviceApiClient} {generation : UInt64}
    {operation : String} {bindingId : Option String} (hk : .sent ∈ kinds) :
    Changes P kinds (client.addProofForGeneration P generation operation bindingId) := by
  unfold DeviceApiClient.addProofForGeneration
  refine .check fun _ => ?_
  refine .bind (changes_postWithIdempotency hk) fun response => ?_
  split
  · exact .probe _
  · split
    · exact .probe _
    · refine .check fun _ => ?_
      split
      · exact .probe _
      · exact .ite (.probe _) (.pure _)

theorem changes_registerDeviceAt {client : DeviceApiClient} {path : String} {r : Registration}
    {key : Option String} {operation : String} (hk : .sent ∈ kinds) :
    Changes P kinds (client.registerDeviceAt P path r key operation) := by
  unfold DeviceApiClient.registerDeviceAt
  refine .check fun _ => ?_
  exact .bind (changes_addProofForGeneration hk) fun _ => changes_postWithIdempotency hk

theorem changes_ensureDevice {client : DeviceApiClient} {r : Registration} {key : String}
    (hk : .sent ∈ kinds) : Changes P kinds (client.ensureDevice P r key) := by
  unfold DeviceApiClient.ensureDevice
  refine .check fun _ => ?_
  exact changes_registerDeviceAt hk

theorem changes_ensureWithRetry {client : DeviceApiClient} {r : Registration} {key : String}
    (hk : .sent ∈ kinds) : Changes P kinds (client.ensureWithRetry P r key) := by
  have h : ∀ n, Changes P kinds (client.ensureAttempts P r key n) := by
    intro n
    induction n with
    | zero => exact changes_ensureDevice hk
    | succ n ih =>
      refine .bind (.attempt (changes_ensureDevice hk)) fun result => ?_
      cases result with
      | ok value => exact .pure _
      | error e => exact .ite ih (.probe _)
  exact h 4

theorem changes_bindingRequest {client : DeviceApiClient} {bindingId : String}
    {generation : UInt64} {operation path : String} {members : List (String × Json)}
    (hk : .sent ∈ kinds) :
    Changes P kinds (client.bindingRequest P bindingId generation operation path members) :=
  .bind (.probe _) fun _ => .bind (changes_addProofForGeneration hk) fun _ =>
    changes_postWithIdempotency hk

/-! ## Enrollment -/

theorem changes_findPending {args : List String} (hk : .write .pendingRegistration ∈ kinds) :
    Changes P kinds (Ensure.findPending P args) := by
  unfold Ensure.findPending
  refine .bind (.probe _) fun loaded => ?_
  split
  · exact .pure _
  · exact .pure _
  · split
    · exact .bind (.probe _) fun _ => .bind (.probe _) fun _ => .pure _
    · exact .bind (.attempt (changes_recordPendingRegistrationError hk)) fun _ => .probe _
  · exact .probe _

theorem changes_findIdentity {server releaseProfile credentialProfile : String}
    {pending : Option PendingRegistration} {credential : Option CommunityCredential}
    {metadata : Option StoredIdentityMetadata} (hk : .write .key ∈ kinds) :
    Changes P kinds (Ensure.findIdentity P server releaseProfile credentialProfile pending
      credential metadata) := by
  unfold Ensure.findIdentity
  split
  · refine .bind (.probe _) fun _ => ?_
    refine .check fun _ => ?_
    exact .bind (.probe _) fun _ => .pure _
  · exact .probe _
  · refine .check fun _ => ?_
    exact .probe _
  · refine .bind (.probe _) fun _ => ?_
    refine .check fun _ => ?_
    exact .bind (.probe _) fun _ => .bind (changes_saveIdentity hk) fun _ => .pure _

theorem changes_reEnroll {args : List String} {token : Option String}
    {server releaseProfile credentialProfile : String} {identity : DeviceIdentity}
    {pending : Option PendingRegistration} {credential : Option CommunityCredential}
    {metadata : Option StoredIdentityMetadata} (hk : .write .pendingRegistration ∈ kinds) :
    Changes P kinds (Ensure.reEnroll P args token server releaseProfile credentialProfile identity
      pending credential metadata) := by
  unfold Ensure.reEnroll
  split
  · exact .pure _
  · refine .bind (.probe _) fun _ => ?_
    refine .bind (.probe _) fun _ => ?_
    refine .ite (.pure _) ?_
    refine .check fun _ => ?_
    refine .check fun _ => ?_
    refine .check fun _ => ?_
    refine .bind (.probe _) fun _ => ?_
    refine .bind (.probe _) fun _ => ?_
    refine .bind (.probe _) fun _ => ?_
    exact .bind (changes_savePendingRegistration hk) fun _ => .pure _

theorem changes_operationKey {server mode : String} {identity : DeviceIdentity}
    {pending : Option PendingRegistration} (hk : .write .pendingRegistration ∈ kinds) :
    Changes P kinds (Ensure.operationKey P server mode identity pending) := by
  unfold Ensure.operationKey
  split
  · exact .bind (.probe _) fun _ => .pure _
  · refine .bind (.probe _) fun _ => ?_
    refine .bind (.probe _) fun _ => ?_
    exact .bind (changes_savePendingRegistration hk) fun _ => .pure _

theorem changes_exchange {server : String} {token : Option String} {r : Registration}
    {key : String} (hs : .sent ∈ kinds) (hk : .write .pendingRegistration ∈ kinds) :
    Changes P kinds (Ensure.exchange P server token r key) := by
  unfold Ensure.exchange
  split
  · exact .probe _
  · refine .bind (.probe _) fun api => ?_
    refine .bind (.attempt (changes_ensureWithRetry hs)) fun result => ?_
    split
    · exact .pure _
    · exact .bind (.attempt (changes_recordPendingRegistrationError hk)) fun _ => .probe _

/-- The kinds of steps that commit an enrollment. -/
def commitKinds : List Kind :=
  [.issued, .write .credential, .write .policy, .write .identityMetadata,
    .remove .pendingRegistration]

theorem changes_commit {server : String} {r : Registration}
    {pending : Option PendingRegistration} {existing : Option CommunityCredential}
    {update : Option PreparedPolicyUpdate} {body : Json} :
    Changes P commitKinds (Ensure.commit P server r pending existing update body) := by
  unfold Ensure.commit
  refine .bind (.probe _) fun nowUnix => ?_
  have hlast : Changes P commitKinds (do
        saveIdentityMetadata P r.identity server
        clearPendingRegistration) :=
    .bind (changes_saveIdentityMetadata (by decide)) fun _ =>
      changes_clearPendingRegistration (by decide)
  have hissued : ∀ (c : CommunityCredential) (rest : Command Unit),
      Changes P commitKinds rest →
      Changes P commitKinds (do
          record (.issued c)
          save P c
          rest) := by
    intro c rest hr
    refine .bind (.record (k := .issued) (by decide) fun _ => ⟨c, rfl⟩) fun _ => ?_
    exact .bind (changes_save (by decide)) fun _ => hr
  split
  · exact .probe _
  · cases update with
    | none => exact .ite (.bind (.probe _) fun _ => hissued _ _ hlast) (hissued _ _ hlast)
    | some update =>
      have hpolicy : Changes P commitKinds (commitPolicyUpdate update) :=
        changes_commitPolicyUpdate (by decide)
      have hrest := Changes.bind hpolicy fun _ => hlast
      exact .ite (.bind (.probe _) fun _ => hissued _ _ hrest) (hissued _ _ hrest)

/-- The kinds of steps of an enrollment, besides a policy change. -/
def ensureKinds : List Kind :=
  [.sent, .issued, .write .key, .write .identityMetadata, .write .pendingRegistration,
    .remove .pendingRegistration, .write .credential]

end

/-! ## Rotation -/

section

variable {P} {kinds : List Kind}

theorem changes_prepareIdentityRotation {current : DeviceIdentity}
    (hk : .write .pendingKeyRotation ∈ kinds) :
    Changes P kinds (prepareIdentityRotation P current) := by
  unfold prepareIdentityRotation
  refine .bind (.probe _) fun pending => ?_
  cases pending with
  | some pending =>
    refine .check fun _ => ?_
    exact .pure _
  | none =>
    cases checkedSucc current.generation with
    | none => exact .probe _
    | some generation =>
      refine .bind (.probe _) fun _ => .bind (.probe _) fun _ => ?_
      exact .bind (.write hk fun _ => ⟨_, rfl⟩) fun _ => .pure _

theorem changes_commitIdentityRotation {identity : DeviceIdentity} {c : CommunityCredential}
    (hkey : .write .key ∈ kinds) (hm : .write .identityMetadata ∈ kinds)
    (hc : .write .credential ∈ kinds) (hb : .remove .activeBinding ∈ kinds)
    (hp : .remove .pendingKeyRotation ∈ kinds) (hr : .remove .pendingRotation ∈ kinds) :
    Changes P kinds (commitIdentityRotation P identity c) := by
  unfold commitIdentityRotation
  refine .bind (.probe _) fun pending => ?_
  cases pending with
  | none => exact .probe _
  | some pending =>
    refine .check fun _ => ?_
    refine .bind (changes_saveIdentity hkey) fun _ => ?_
    refine .bind (changes_saveIdentityMetadata hm) fun _ => ?_
    refine .bind (changes_save hc) fun _ => ?_
    refine .bind (changes_clearActiveBinding hb) fun _ => ?_
    exact .bind (.remove hp fun _ => rfl) fun _ => .remove hr fun _ => rfl

theorem changes_finishInterruptedIdentityRotation {identity : DeviceIdentity}
    {c : CommunityCredential} (hr : .remove .pendingRotation ∈ kinds) :
    Changes P kinds (finishInterruptedIdentityRotation P identity c) := by
  unfold finishInterruptedIdentityRotation
  refine .bind (.probe _) fun s => ?_
  refine .bind (.probe _) fun rotation => ?_
  cases rotation with
  | none => exact .pure _
  | some rotation =>
    refine .bind (.probe _) fun prepared => ?_
    refine .ite (.pure _) ?_
    refine .bind (.probe _) fun s => .bind (.probe _) fun metadata => ?_
    refine .check fun _ => ?_
    refine .bind (.probe _) fun s' => ?_
    have hclear : Changes P kinds (do
        clearPendingRotationMetadata
        pure true : Command Bool) := .bind (.remove hr fun _ => rfl) fun _ => .pure _
    cases s'.loadActiveBinding identity.deviceId with
    | ok b => exact .bind (.probe _) fun _ => hclear
    | error e =>
      cases e with
      | missing => exact hclear
      | _ => exact .bind (.probe _) fun _ => hclear

theorem changes_loadOrCreatePendingRotation {current next : DeviceIdentity} {revision : UInt64}
    (hk : .write .pendingRotation ∈ kinds) :
    Changes P kinds (loadOrCreatePendingRotation P current next revision none) := by
  unfold loadOrCreatePendingRotation
  refine .check fun _ => ?_
  refine .check fun _ => ?_
  refine .bind (.probe _) fun s => .bind (.probe _) fun existing => ?_
  cases existing with
  | some existing =>
    refine .check fun _ => ?_
    refine .check fun _ => ?_
    refine .check fun _ => ?_
    exact .pure _
  | none =>
    refine .check fun _ => ?_
    refine .bind (.probe newIdempotencyKey) fun key => ?_
    refine .check fun _ => ?_
    exact .bind (.probe _) fun _ => .bind (.write hk fun _ => ⟨_, rfl⟩) fun _ => .pure _

/-- The kinds of steps of a rotation. -/
def rotateKinds : List Kind :=
  [.sent, .issued, .write .key, .write .identityMetadata, .write .credential,
    .write .pendingKeyRotation, .write .pendingRotation, .remove .activeBinding,
    .remove .pendingKeyRotation, .remove .pendingRotation]

theorem changes_submit {build : Build} {token signer : String} {previous : CommunityCredential}
    {current next : DeviceIdentity} :
    Changes P rotateKinds (Rotate.submit P build token signer previous current next) := by
  unfold Rotate.submit
  refine .bind (changes_loadOrCreatePendingRotation (by decide)) fun rotation => ?_
  refine .bind (.probe _) fun found => .bind (.probe _) fun api => ?_
  have hrotate : ∀ r key, Changes P rotateKinds (api.rotateDevice P r key) := by
    intro r key
    unfold DeviceApiClient.rotateDevice
    refine .check fun _ => ?_
    exact changes_registerDeviceAt (by decide)
  refine .bind (hrotate _ _) fun body => .bind (.probe _) fun nowUnix => ?_
  split
  · exact .probe _
  · rename_i c _
    refine .check fun _ => ?_
    refine .bind (.record (k := .issued) (by decide) fun _ => ⟨c, rfl⟩) fun _ => ?_
    exact changes_commitIdentityRotation (by decide) (by decide) (by decide) (by decide)
      (by decide) (by decide)

theorem changes_start {build : Build} {args : List String} {token : String}
    {previous : CommunityCredential} {current : DeviceIdentity} :
    Changes P rotateKinds (Rotate.start P build args token previous current) := by
  unfold Rotate.start
  refine .bind (.probe _) fun signer => .bind (.probe _) fun s => ?_
  refine .bind (.probe _) fun existing => .bind (.probe _) fun prepared => ?_
  refine .check fun _ => ?_
  refine .bind (.probe _) fun s' => .bind (.probe _) fun active => ?_
  refine .check fun _ => ?_
  cases prepared with
  | some next => exact changes_submit
  | none =>
    exact .bind (changes_prepareIdentityRotation (by decide)) fun next => changes_submit

theorem changes_deviceRotate {build : Build} {args : List String} :
    Changes P rotateKinds (deviceRotate P build args) := by
  unfold deviceRotate
  refine .check fun _ => ?_
  refine .bind (.probe _) fun _ => .bind (.probe _) fun token => ?_
  refine .bind (.probe _) fun s => .bind (.probe _) fun previous => ?_
  refine .bind (.probe _) fun current => ?_
  refine .bind (changes_finishInterruptedIdentityRotation (by decide)) fun finished => ?_
  exact .ite (.pure _) changes_start

end

/-! ## Policy changes and removal -/

section

variable {P} {kinds : List Kind}

theorem changes_synchronizeRegisteredPolicy {build : Build} {args : List String}
    {runtime : String} {policy : VerifiedLocalPolicy} (hs : .sent ∈ kinds) (hi : .issued ∈ kinds) :
    Changes P kinds (synchronizeRegisteredPolicy P build args runtime policy) := by
  unfold synchronizeRegisteredPolicy
  refine .bind (.probe _) fun s => ?_
  cases s.loadForRotation P with
  | error e =>
    cases e with
    | missing =>
      refine .check fun _ => ?_
      exact .pure _
    | _ => exact .probe _
  | ok previous =>
    refine .bind (.probe _) fun token => ?_
    cases token with
    | none => exact .probe _
    | some token =>
      refine .bind (.probe _) fun identity => .bind (.probe _) fun certificate => ?_
      refine .bind (.probe _) fun key => .bind (.probe _) fun api => ?_
      refine .bind (changes_ensureWithRetry hs) fun response => .bind (.probe _) fun nowUnix => ?_
      split
      · exact .probe _
      · exact .bind (.record hi fun _ => ⟨_, rfl⟩) fun _ => .pure _

/-- The kinds of steps of a policy change for the device as a whole. -/
def policyKinds : List Kind :=
  [.sent, .issued, .remove .activeBinding, .write .policy, .write .credential]

theorem changes_synchronizeAndCommit {build : Build} {args : List String} {runtime : String}
    {update : PreparedPolicyUpdate} {verified : VerifiedLocalPolicy} :
    Changes P policyKinds (synchronizeAndCommit P build args runtime update verified) := by
  unfold synchronizeAndCommit
  refine .bind (changes_synchronizeRegisteredPolicy (by decide) (by decide)) fun credential => ?_
  cases credential with
  | none => exact changes_commitPolicyUpdate (by decide)
  | some c =>
    refine .bind (changes_clearActiveBinding (by decide)) fun _ => ?_
    exact .bind (changes_commitPolicyUpdate (by decide)) fun _ => changes_save (by decide)

theorem changes_learningSet {build : Build} {args : List String} :
    Changes P policyKinds (learningSet P build args) := by
  unfold learningSet
  refine .check fun _ => ?_
  refine .bind (.probe _) fun paths => ?_
  split
  · refine .bind (.probe _) fun _ => .bind (.probe _) fun update => ?_
    refine .bind (.probe _) fun runtime => .bind (.probe _) fun verified => ?_
    refine .bind changes_synchronizeAndCommit fun _ => .bind (.probe _) fun policy => ?_
    exact .ite (.probe _) (.pure _)
  · exact .probe _

theorem changes_localMetadata (hk : .write .identityMetadata ∈ kinds) :
    Changes P kinds (localMetadata P) := by
  unfold localMetadata
  refine .bind (.probe _) fun s => ?_
  cases s.loadForRotation P with
  | ok c => exact .bind (.probe _) fun identity => changes_saveIdentityMetadata hk
  | error e =>
    cases e with
    | missing =>
      refine .bind (.probe _) fun metadata => .bind (.probe _) fun s' => ?_
      exact .bind (.probe _) fun _ => .pure _
    | _ => exact .probe _

theorem changes_retireRuntimeState (hk : .write .identityMetadata ∈ kinds)
    (hc : .remove .credential ∈ kinds) (hb : .remove .activeBinding ∈ kinds) :
    Changes P kinds (retireRuntimeState P) := by
  unfold retireRuntimeState
  have hlast : Changes P kinds (do
      removeOwnerFileIfPresent fun s => { s with credential := none }
      removeOwnerFileIfPresent fun s => { s with activeBinding := none }) :=
    .bind (.remove hc fun _ => rfl) fun _ => .remove hb fun _ => rfl
  refine .bind (.probe _) fun s => ?_
  cases s.loadForRotation P with
  | ok c =>
    exact .bind (.probe _) fun identity => .bind (changes_saveIdentityMetadata hk) fun _ => hlast
  | error e =>
    cases e with
    | missing => exact hlast
    | _ => exact .bind (.probe _) fun _ => hlast

end

/-! ## Invariants of an enrollment -/

section

variable {P} {E : Surroundings} {J : World → Prop} {α β : Type}

theorem Changes.keeps {kinds : List Kind} {p : Command α} (h : Changes P kinds p)
    (hJ : ∀ k ∈ kinds, ∀ w w', Change P w w' k → J w → J w') : Cmd.Keeps E J p :=
  Cmd.Within.keeps h fun w w' ⟨k, hk, hc⟩ => hJ k hk w w' hc

theorem keeps_probe (p : Probe α) : Cmd.Keeps E J (liftM p : Command α) :=
  Cmd.Within.keeps (G := fun _ _ => False) (Cmd.within_of_still p.2) fun _ _ h => h.elim

theorem keeps_check {c : Prop} [Decidable c] {failure : Failure} {f : PUnit → Command α}
    (h : ¬ c → Cmd.Keeps E J (f ⟨⟩)) :
    Cmd.Keeps E J (if c then liftM (raise failure : Probe PUnit) >>= f else f ⟨⟩) := by
  split
  · exact fun _ h => h
  · rename_i hc
    exact h hc

/-- A question that a command asks while `J` holds. -/
theorem wp_probe {p : Probe β} {f : β → Command α} {R : α → World → Prop} {w : World} (h : J w)
    (hR : ∀ b, Cmd.Returns E p.1 w b w → Cmd.wp E J (fun _ => J) (f b) R w) :
    Cmd.wp E J (fun _ => J) (liftM p >>= f) R w := by
  rw [Cmd.wp_bind]
  exact Probe.wp p h (fun _ _ => h) hR

theorem wp_check {c : Prop} [Decidable c] {failure : Failure} {f : PUnit → Command α}
    {R : α → World → Prop} {w : World} (h : J w)
    (hR : ¬ c → Cmd.wp E J (fun _ => J) (f ⟨⟩) R w) :
    Cmd.wp E J (fun _ => J) (if c then liftM (raise failure : Probe PUnit) >>= f else f ⟨⟩) R w := by
  rw [Cmd.wp_ite]
  exact ⟨fun _ => h, hR⟩

theorem wp_liftFailure_bind {α β : Type} {x : Except Failure α} {f : α → Command β}
    {I : World → Prop} {F : Failure → World → Prop} {R : β → World → Prop} {w : World}
    (hF : ∀ e, x = .error e → F e w) (hR : ∀ a, x = .ok a → Cmd.wp E I F (f a) R w) :
    Cmd.wp E I F (liftM (liftFailure x) >>= f) R w := by
  cases x with
  | ok a => exact hR a rfl
  | error e => exact hF e rfl

/-- What a command knows of a value it has read. -/
theorem keeps_probe_bind {p : Probe β} {f : β → Command α}
    (h : ∀ w b, J w → Cmd.Returns E p.1 w b w → Cmd.Keeps E J (f b)) :
    Cmd.Keeps E J (liftM p >>= f) := by
  exact fun w hw => wp_probe hw fun b hb => h w b hw hb w hw

/-- A replacement of the policy keeps the invariant. -/
def Bears (J : World → Prop) (update : Option PreparedPolicyUpdate) : Prop :=
  ∀ u, update = some u → ∀ w, J w →
    J ((w.logged (.replacedPolicy u.next)).stored { w.store with policy := some u.next })

theorem keeps_commitPolicyUpdate {update : PreparedPolicyUpdate} (hu : Bears J (some update)) :
    Cmd.Keeps E J (commitPolicyUpdate update) := by
  unfold commitPolicyUpdate
  refine .bind (keeps_probe _) fun s => ?_
  refine .bind (keeps_probe _) fun current => ?_
  refine keeps_check fun _ => ?_
  cases checkedSucc current.policyRevision with
  | none => exact keeps_probe _
  | some revision =>
    refine keeps_check fun _ => ?_
    refine .bind (keeps_probe _) fun _ => ?_
    intro w hw
    exact wp_atomicOwnerWrite hw (fun _ _ => hw) (fun _ _ => hu update rfl w hw) (hu update rfl w hw)

variable (hJ : ∀ k ∈ ensureKinds, ∀ w w', Change P w w' k → J w → J w')

include hJ

theorem keeps_commit {server : String} {r : Registration}
    {pending : Option PendingRegistration} {existing : Option CommunityCredential}
    {update : Option PreparedPolicyUpdate} {body : Json} (hu : Bears J update) :
    Cmd.Keeps E J (Ensure.commit P server r pending existing update body) := by
  unfold Ensure.commit
  refine .bind (keeps_probe _) fun nowUnix => ?_
  have hissued : ∀ (c : CommunityCredential) (rest : Command Unit), Cmd.Keeps E J rest →
      Cmd.Keeps E J (do
        record (.issued c)
        save P c
        rest) := by
    intro c rest hr
    have hissued : Changes P ensureKinds (record (.issued c)) :=
      .record (k := .issued) (by decide) fun _ => ⟨c, rfl⟩
    refine .bind (hissued.keeps hJ) fun _ => ?_
    exact .bind ((changes_save (by decide)).keeps hJ) fun _ => hr
  have hlast : Cmd.Keeps E J (do
      saveIdentityMetadata P r.identity server
      clearPendingRegistration) :=
    .bind ((changes_saveIdentityMetadata (by decide)).keeps hJ) fun _ =>
      (changes_clearPendingRegistration (by decide)).keeps hJ
  split
  · exact keeps_probe _
  · cases update with
    | none =>
      exact .ite (.bind (keeps_probe _) fun _ => hissued _ _ hlast) (hissued _ _ hlast)
    | some update =>
      have hrest := Cmd.Keeps.bind (keeps_commitPolicyUpdate hu) fun _ => hlast
      exact .ite (.bind (keeps_probe _) fun _ => hissued _ _ hrest) (hissued _ _ hrest)

variable {build : Build}
  (hu : ∀ w args identity inputs, J w →
    Cmd.Returns E (localRegistrationInputs build args identity).1 w inputs w →
    Bears J inputs.policyUpdate)

include hu

theorem keeps_register {args : List String} {server mode : String} {token : Option String}
    {identity : DeviceIdentity} {pending : Option PendingRegistration}
    {existing : Option CommunityCredential} {prepared : Option LocalRegistrationInputs}
    (hp : ∀ inputs, prepared = some inputs → Bears J inputs.policyUpdate) :
    Cmd.Keeps E J (Ensure.register P build args server mode token identity pending existing
      prepared) := by
  unfold Ensure.register
  have hrest : ∀ key (inputs : LocalRegistrationInputs), Bears J inputs.policyUpdate →
      Cmd.Keeps E J (do
        let registration : Registration :=
          ⟨build, identity, inputs.runtime, inputs.policy, inputs.signerCertificateSha256, mode⟩
        let body ← Ensure.exchange P server token registration key
        Ensure.commit P server registration pending existing inputs.policyUpdate body) := by
    intro key inputs hin
    exact .bind ((changes_exchange (by decide) (by decide)).keeps hJ) fun body =>
      keeps_commit hJ hin
  refine .bind ((changes_operationKey (by decide)).keeps hJ) fun key => ?_
  cases prepared with
  | some inputs => exact hrest key inputs (hp inputs rfl)
  | none => exact keeps_probe_bind fun w inputs hw hr => hrest key inputs (hu w _ _ _ hw hr)

theorem keeps_finish {args : List String} {server mode : String} {token : Option String}
    {identity : DeviceIdentity} {pending : Option PendingRegistration}
    {existing : Option CommunityCredential} :
    Cmd.Keeps E J (Ensure.finish P build args server mode token identity pending existing) := by
  unfold Ensure.finish
  have hrest : ∀ fresh : Bool, Cmd.Keeps E J (do
      if fresh then do
        let inputs ← localRegistrationInputs build args identity
        if inputs.policyUpdate.isNone ∧ ¬ hasOption args "--re-enroll" ∧
            (pending.isSome ∨ ¬ hasOption args "--force-refresh") then
          if pending.isSome then clearPendingRegistration
        else Ensure.register P build args server mode token identity pending existing (some inputs)
      else Ensure.register P build args server mode token identity pending existing none :
        Command Unit) := by
    intro fresh
    refine .ite ?_ (keeps_register hJ hu nofun)
    refine keeps_probe_bind fun w inputs hw hr => ?_
    refine .ite (.ite ((changes_clearPendingRegistration (by decide)).keeps hJ) (.pure _)) ?_
    refine keeps_register hJ hu ?_
    rintro _ ⟨⟩
    exact hu w _ _ _ hw hr
  cases existing.filter (credentialMatchesIdentity · identity server) with
  | none => exact hrest false
  | some credential => exact .bind (keeps_probe _) fun _ => hrest _

/-- What the steps of an enrollment keep, and the policy change it may bring, it keeps. -/
theorem keeps_ensure {args : List String} : Cmd.Keeps E J (ensure P build args) := by
  unfold ensure
  refine .bind (keeps_probe _) fun _ => ?_
  refine .bind ((changes_findPending (by decide)).keeps hJ) fun pending => ?_
  refine .bind (keeps_probe _) fun s => ?_
  refine .bind (keeps_probe _) fun existing => ?_
  refine .bind (keeps_probe _) fun stored => ?_
  refine .bind (keeps_probe _) fun server => ?_
  refine .bind (keeps_probe _) fun token => ?_
  refine .bind (keeps_probe _) fun releaseProfile => ?_
  refine .bind (keeps_probe _) fun credentialProfile => ?_
  refine keeps_check fun _ => ?_
  have hlast : Cmd.Keeps E J (do
      let identity ← Ensure.findIdentity P server releaseProfile credentialProfile pending existing
        stored
      if (identity.releaseProfile ≠ releaseProfile ∨
          identity.credentialProfile ≠ credentialProfile) ∧ pending.isNone then
        fail .compatibilityMismatch
      if identity.needsEncryptionKeyRotation then fail .malformed
      let pending ← Ensure.reEnroll P args token server releaseProfile credentialProfile identity
        pending existing stored
      let mode := Ensure.enrollmentMode args pending existing stored
      if ¬ isEnrollmentMode mode then fail .malformed
      saveIdentityMetadata P identity server
      Ensure.finish P build args server mode token identity pending existing) := by
    refine .bind ((changes_findIdentity (by decide)).keeps hJ) fun identity => ?_
    refine keeps_check fun _ => ?_
    refine keeps_check fun _ => ?_
    refine .bind ((changes_reEnroll (by decide)).keeps hJ) fun pending => ?_
    refine keeps_check fun _ => ?_
    refine .bind ((changes_saveIdentityMetadata (by decide)).keeps hJ) fun _ => ?_
    exact keeps_finish hJ hu
  exact .ite (.bind (keeps_probe _) fun _ => hlast) hlast

end

/-! ## The log -/

section

variable {P}

theorem Change.suffix {w w' : World} {k : Kind} (h : Change P w w' k) :
    w.log <:+ w'.log := by
  cases k with
  | write file =>
    cases file with
    | credential =>
      obtain ⟨c, -, -, rfl⟩ := h
      exact List.suffix_cons _ _
    | key | policy =>
      obtain ⟨x, rfl⟩ := h
      exact List.suffix_cons _ _
    | pendingKeyRotation | pendingRotation =>
      obtain ⟨x, rfl⟩ := h
      exact List.suffix_rfl
    | _ =>
      obtain ⟨x, -, rfl⟩ := h
      exact List.suffix_rfl
  | remove file =>
    cases h
    exact List.suffix_rfl
  | sent =>
    obtain ⟨q, r, rfl⟩ := h
    exact List.suffix_cons _ _
  | issued | confirmed =>
    obtain ⟨c, rfl⟩ := h
    exact List.suffix_cons _ _

/-- A part that logs nothing is known by its result and its store. -/
theorem eval_unlogged {α : Type} {kinds : List Kind} {p : Command α}
    {answer : World → (q : Query) → Option q.Answer} (hp : Changes P kinds p) {w : World} {a : α}
    {s : Store} (h : (p.eval answer w).map (fun x => (x.1, x.2.store, x.2.log.length)) =
      some (a, s, w.log.length)) : p.eval answer w = some (a, ⟨s, w.log⟩) := by
  obtain ⟨⟨b, w'⟩, he, hx⟩ := Option.map_eq_some_iff.mp h
  have hsuffix : w.log <:+ w'.log :=
    Cmd.Keeps.passes (hp.keeps (E := Cmd.Given answer) (J := fun w' => w.log <:+ w'.log)
      fun k _ _ _ hc hw => hw.trans hc.suffix) List.suffix_rfl ⟨_, Cmd.returns_eval he⟩
  simp only [Prod.mk.injEq] at hx
  obtain ⟨rfl, rfl, hl⟩ := hx
  rw [he, hsuffix.eq_of_length hl.symm]

end

end Device
end EgoBridge
