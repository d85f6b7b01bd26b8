import EgoBridge.Device.Footprint
import EgoBridge.Device.Answers

/-!
# Device.Handoff

The active-binding handoff while policy documents are replaced.

* `PolicyKept`   — no policy was replaced while a handoff was stored, and the handoff that is
  stored now was written from a confirmation of that policy or by a later claim or resume.
* `handoff_kept` — it holds in every run that enrolls no device under a handoff with a release
  that offers a bundle of its own.
-/

namespace EgoBridge
namespace Device

open Protocol Json Crash

variable (P : Platform) (E : Surroundings)

/-- The policy can be verified on this machine, with this outcome. -/
def VerifiedAs (p : LocalPolicy) (v : VerifiedLocalPolicy) : Prop :=
  ∃ skill runtime w, Cmd.Returns E (p.verify skill runtime).1 w v w

namespace Confirmation

/-- The server has confirmed exactly this policy for the binding. -/
def Authorises (c : Confirmation) (bindingId : String) (p : LocalPolicy) : Prop :=
  c.command = .confirmAllowlist ∧ c.bindingId = bindingId ∧
    ∃ v, c.policy = some v ∧ VerifiedAs E p v

def Opens (c : Confirmation) (bindingId : String) : Prop :=
  (c.command = .claim ∨ c.command = .resume) ∧ c.bindingId = bindingId

end Confirmation

/-- Where a handoff for the binding has come from, if the policy was ever replaced: a claim or a
resume since, or the confirmation the last replacement was made on. -/
def Sourced (bindingId : String) : List Entry → Prop
  | [] => True
  | e :: older =>
    match e.event with
    | .replacedPolicy p => ∃ c s rest, older = ⟨.confirmed c, s⟩ :: rest ∧ c.Authorises E bindingId p
    | .confirmed c => c.Opens bindingId ∨ Sourced bindingId older
    | _ => Sourced bindingId older

structure PolicyKept (w : World) : Prop where
  alone : ∀ e ∈ w.log, ∀ p, e.event = .replacedPolicy p → e.store.activeBinding = none
  sourced : ∀ b, w.store.activeBinding = some b → Sourced E b.bindingId w.log

/-- The invariant: the device stays registered. -/
structure Registered (w : World) : Prop extends PolicyKept E w where
  registered : w.store.credential.isSome

/-! ## Steps -/

section

variable {P E}

/-- A kind of step that neither replaces the policy, writes a handoff nor retires the device. -/
def Calm (k : Kind) : Prop :=
  k ≠ .write .policy ∧ k ≠ .write .activeBinding ∧ k ≠ .remove .credential

instance (k : Kind) : Decidable (Calm k) := inferInstanceAs (Decidable (_ ∧ _))

/-- An event that leaves the source of the handoff as it is. -/
theorem Registered.log {w w' : World} (h : Registered E w) (event : Event)
    (hp : ∀ p, event ≠ .replacedPolicy p) (hl : w'.log = ⟨event, w.store⟩ :: w.log)
    (hc : w'.store.credential.isSome)
    (hb : ∀ b, w'.store.activeBinding = some b → w.store.activeBinding = some b) :
    Registered E w' := by
  refine ⟨⟨?_, ?_⟩, hc⟩
  · intro e he p hep
    rw [hl] at he
    cases he with
    | head => exact absurd hep (hp p)
    | tail _ he => exact h.alone e he p hep
  · intro b hb'
    have hs := h.sourced b (hb b hb')
    rw [hl]
    cases event with
    | replacedPolicy p => exact absurd rfl (hp p)
    | confirmed c => exact .inr hs
    | sent _ _ => exact hs
    | issued _ => exact hs
    | installed _ => exact hs
    | saved _ => exact hs

theorem Registered.logged {w : World} (h : Registered E w) (event : Event)
    (hp : ∀ p, event ≠ .replacedPolicy p) : Registered E (w.logged event) :=
  h.log event hp rfl h.registered fun _ h => h

theorem Registered.same {w w' : World} (h : Registered E w) (hl : w'.log = w.log)
    (hc : w'.store.credential.isSome)
    (hb : ∀ b, w'.store.activeBinding = some b → w.store.activeBinding = some b) :
    Registered E w' :=
  ⟨⟨hl ▸ h.alone, fun b hb' => hl ▸ h.sourced b (hb b hb')⟩, hc⟩

theorem Registered.change {w w' : World} {k : Kind} (hk : Calm k) (hc : Change P w w' k)
    (h : Registered E w) : Registered E w' := by
  obtain ⟨hpolicy, hbinding, hcredential⟩ := hk
  cases k with
  | write file =>
    cases file with
    | credential =>
      obtain ⟨c, -, -, rfl⟩ := hc
      exact h.log (.saved c) nofun rfl rfl fun _ h => h
    | key =>
      obtain ⟨i, rfl⟩ := hc
      exact h.log (.installed i) nofun rfl h.registered fun _ h => h
    | identityMetadata =>
      obtain ⟨m, -, rfl⟩ := hc
      exact h.same rfl h.registered fun _ h => h
    | pendingKeyRotation =>
      obtain ⟨i, rfl⟩ := hc
      exact h.same rfl h.registered fun _ h => h
    | pendingRotation =>
      obtain ⟨r, rfl⟩ := hc
      exact h.same rfl h.registered fun _ h => h
    | pendingRegistration =>
      obtain ⟨p, -, rfl⟩ := hc
      exact h.same rfl h.registered fun _ h => h
    | policy => exact absurd rfl hpolicy
    | activeBinding => exact absurd rfl hbinding
    | localAdmission =>
      obtain ⟨r, -, rfl⟩ := hc
      exact h.same rfl h.registered fun _ h => h
  | remove file =>
    cases hc
    cases file with
    | credential => exact absurd rfl hcredential
    | activeBinding => exact h.same rfl h.registered nofun
    | _ => exact h.same rfl h.registered fun _ h => h
  | sent =>
    obtain ⟨request, registration, rfl⟩ := hc
    exact h.logged (.sent request registration) nofun
  | issued =>
    obtain ⟨c, rfl⟩ := hc
    exact h.logged (.issued c) nofun
  | confirmed =>
    obtain ⟨c, rfl⟩ := hc
    exact h.logged (.confirmed c) nofun

theorem Registered.cleared {w : World} (h : Registered E w) :
    Registered E (w.stored { w.store with activeBinding := none }) :=
  h.same rfl h.registered nofun

/-- A replacement that finds no handoff. -/
theorem Registered.replacedPolicy {w : World} (h : Registered E w)
    (hb : w.store.activeBinding = none) (p : LocalPolicy) :
    Registered E ((w.logged (.replacedPolicy p)).stored { w.store with policy := some p }) := by
  refine ⟨⟨?_, ?_⟩, h.registered⟩
  · intro e he q hq
    cases he with
    | head => exact hb
    | tail _ he => exact h.alone e he q hq
  · intro b hb'
    rw [stored_store, hb] at hb'
    cases hb'

theorem Registered.handoff {w : World} (h : Registered E w) {b : ActiveBinding}
    (hs : Sourced E b.bindingId w.log) :
    Registered E (w.stored { w.store with activeBinding := some b }) := by
  refine ⟨⟨h.alone, ?_⟩, h.registered⟩
  rintro _ ⟨⟩
  exact hs

end

/-! ## Enrollment -/

/-- The installed release has a bundle to put in place of the stored policy's. -/
def Offers (build : Build) (w : World) : Prop :=
  ∃ release runtime w' r, w'.store.policy = w.store.policy ∧
    Cmd.Returns E (prepareManagedLearningBundleUpdate build release runtime).1 w' r w' ∧
    r.2.isSome

section

variable {P E} {build : Build}

theorem managedPolicy_returns {runtime : String} {w : World}
    {r : VerifiedLocalPolicy × Option PreparedPolicyUpdate} (ho : ¬ Offers E build w)
    (h : Cmd.Returns E (managedPolicy build runtime).1 w r w) : r.2 = none := by
  refine Cmd.wp_returns (I := fun _ => True) (F := fun _ _ => True)
    (R := fun r _ => r.2 = none) h ?_
  have hrest : ∀ release : String, Cmd.wp E (fun _ => True) (fun _ _ => True)
      (liftM (do
        beginPolicyUpdate
        mapLocalPolicyError (prepareManagedLearningBundleUpdate build release runtime) :
        Probe (VerifiedLocalPolicy × Option PreparedPolicyUpdate)) : Command _)
      (fun r _ => r.2 = none) w := by
    intro release
    refine Probe.wp_bind trivial (fun _ _ => trivial) fun _ _ => ?_
    refine wp_mapLocalPolicyError trivial (fun _ => trivial) fun r hr => ?_
    rw [← Option.not_isSome_iff_eq_none]
    exact fun hs => ho ⟨release, runtime, w, r, rfl, hr, hs⟩
  refine Probe.wp_bind trivial (fun _ _ => trivial) fun executable _ => ?_
  cases executable with
  | none => trivial
  | some executable =>
    refine Probe.wp_bind trivial (fun _ _ => trivial) fun release _ => ?_
    cases release with
    | none => trivial
    | some release => exact hrest release

/-- Where no release offers a bundle, an enrollment brings no policy change. -/
theorem localRegistrationInputs_returns {args : List String} {identity : DeviceIdentity}
    {w : World} {inputs : LocalRegistrationInputs} (ho : ¬ Offers E build w)
    (h : Cmd.Returns E (localRegistrationInputs build args identity).1 w inputs w) :
    inputs.policyUpdate = none := by
  refine Cmd.wp_returns (I := fun _ => True) (F := fun _ _ => True)
    (R := fun inputs _ => inputs.policyUpdate = none) h ?_
  refine Probe.wp_bind trivial (fun _ _ => trivial) fun runtime _ => ?_
  have hrest : ∀ r : VerifiedLocalPolicy × Option PreparedPolicyUpdate, r.2 = none →
      Cmd.wp E (fun _ => True) (fun _ _ => True)
        (liftM (do
          let signer ← orCompatibilityMismatch
            (signerCertificateSha256ForProfile build args (some identity.releaseProfile))
          pure ⟨runtime, r.1, signer, r.2⟩ : Probe LocalRegistrationInputs) : Command _)
        (fun inputs _ => inputs.policyUpdate = none) w := by
    intro r hr
    exact Probe.wp_bind trivial (fun _ _ => trivial) fun signer _ => hr
  refine Probe.wp_bind trivial (fun _ _ => trivial) fun loaded _ => ?_
  cases loaded with
  | ok loaded => exact hrest (loaded.2, none) rfl
  | error e =>
    by_cases he : e = .credential .learningBundleInvalid
    · subst he
      exact Probe.wp_bind trivial (fun _ _ => trivial) fun r hr =>
        hrest r (managedPolicy_returns ho hr)
    · cases e with
      | message text => trivial
      | credential e =>
        cases e with
        | learningBundleInvalid => exact absurd rfl he
        | _ => trivial

theorem Offers.of_policy {w w' : World} (h : Offers E build w')
    (hw : w'.store.policy = w.store.policy) : Offers E build w := by
  obtain ⟨release, runtime, w'', r, hp, hr⟩ := h
  exact ⟨release, runtime, w'', r, hp.trans hw, hr⟩

/-- The kinds of steps of an enrollment are calm, and none writes the handoff or the policy. -/
theorem ensureKinds_calm : ∀ k ∈ ensureKinds,
    Calm k ∧ k.file ≠ some .policy ∧ k.file ≠ some .activeBinding := by decide

theorem wp_ensure {args : List String} {w : World} (h : Registered E w)
    (hw : w.store.activeBinding = none ∨ ¬ Offers E build w) :
    Cmd.wp E (Registered E) (fun _ => Registered E) (ensure P build args)
      (fun _ => Registered E) w := by
  rcases hw with hb | ho
  · -- Without a handoff, whatever the enrollment brings is committed alone.
    have hkeeps : Cmd.Keeps E (fun w => Registered E w ∧ w.store.activeBinding = none)
        (ensure P build args) := by
      refine keeps_ensure ?_ ?_
      · intro k hk w w' hc hw
        obtain ⟨hcalm, -, hfile⟩ := ensureKinds_calm k hk
        exact ⟨hw.1.change hcalm hc, (hc.activeBinding hfile).trans hw.2⟩
      · intro w args identity inputs _ _ u _ w hw
        exact ⟨hw.1.replacedPolicy hw.2 u.next, hw.2⟩
    exact Cmd.wp_mono (fun _ h => h.1) (fun _ _ h => h.1) (fun _ _ h => h.1) (hkeeps w ⟨h, hb⟩)
  · -- Without a bundle on offer, the policy stays what it is.
    have hkeeps : Cmd.Keeps E (fun w' => Registered E w' ∧ w'.store.policy = w.store.policy)
        (ensure P build args) := by
      refine keeps_ensure ?_ ?_
      · intro k hk w w' hc hw
        obtain ⟨hcalm, hfile, -⟩ := ensureKinds_calm k hk
        exact ⟨hw.1.change hcalm hc, (hc.policy hfile).trans hw.2⟩
      · intro w' args identity inputs hw hr
        rw [localRegistrationInputs_returns (fun h => ho (h.of_policy hw.2)) hr]
        exact nofun
    exact Cmd.wp_mono (fun _ h => h.1) (fun _ _ h => h.1) (fun _ _ h => h.1) (hkeeps w ⟨h, rfl⟩)

end

/-! ## Policy changes -/

section

variable {P E}

theorem Changes.registered {kinds : List Kind} {α : Type} {p : Command α}
    (h : Changes P kinds p) (hk : ∀ k ∈ kinds, Calm k) {w : World} (hw : Registered E w)
    {R : α → World → Prop} (hR : ∀ a w, Registered E w → R a w) :
    Cmd.wp E (Registered E) (fun _ => Registered E) p R w :=
  Cmd.wp_mono (fun _ h => h) (fun _ _ h => h) hR
    (h.keeps (fun k hk' _ _ hc hw => hw.change (hk k hk') hc) w hw)

theorem sent_mem : Kind.sent ∈ [Kind.sent] := List.mem_singleton.mpr rfl

/-- A replacement is made where no handoff is stored, and stores none. -/
theorem wp_commitPolicyUpdate {update : PreparedPolicyUpdate} {w : World}
    (h : Registered E w) (hb : w.store.activeBinding = none) {R : Unit → World → Prop}
    (hR : R () ((w.logged (.replacedPolicy update.next)).stored
      { w.store with policy := some update.next })) :
    Cmd.wp E (Registered E) (fun _ => Registered E) (commitPolicyUpdate update) R w := by
  refine wp_probe h fun s _ => ?_
  refine wp_probe h fun current _ => ?_
  refine wp_check h fun _ => ?_
  cases checkedSucc current.policyRevision with
  | none => exact h
  | some revision =>
    refine wp_check h fun _ => ?_
    refine wp_probe h fun _ _ => ?_
    have hnext := h.replacedPolicy hb update.next
    exact wp_atomicOwnerWrite h (fun _ _ => h) (fun _ _ => hnext) hR

theorem loadForRotation_missing {s : Store} (h : s.loadForRotation P = .error .missing) :
    s.credential = none := by
  rw [Store.loadForRotation, Store.loadCredential] at h
  cases hc : s.credential with
  | none => rfl
  | some c =>
    rw [hc, ownerFile] at h
    generalize c.toJson.size = n at h
    by_cases hn : MAX_CREDENTIAL_BYTES < n
    · rw [if_pos hn] at h
      cases h
    · rw [if_neg hn] at h
      by_cases hv : validCommunityCredential P c none = true
      · simp [hv] at h
      · simp [hv] at h

/-- A registered device's policy change goes through the server. -/
theorem wp_synchronizeRegisteredPolicy {build : Build} {args : List String} {runtime : String}
    {policy : VerifiedLocalPolicy} {w : World} (h : Registered E w)
    {R : Option CommunityCredential → World → Prop}
    (hR : ∀ c w, Registered E w → R (some c) w) :
    Cmd.wp E (Registered E) (fun _ => Registered E)
      (synchronizeRegisteredPolicy P build args runtime policy) R w := by
  rw [synchronizeRegisteredPolicy, Cmd.wp_bind, wp_theStore]
  cases hl : w.store.loadForRotation P with
  | error e =>
    cases e with
    | missing =>
      have hreg := h.registered
      rw [loadForRotation_missing hl] at hreg
      cases hreg
    | _ => exact h
  | ok previous =>
    refine wp_probe h fun token _ => ?_
    cases token with
    | none => exact h
    | some token =>
      refine wp_probe h fun identity _ => ?_
      refine wp_probe h fun certificate _ => ?_
      refine wp_probe h fun key _ => ?_
      refine wp_probe h fun api _ => ?_
      rw [Cmd.wp_bind]
      refine (changes_ensureWithRetry sent_mem).registered (by decide) h ?_
      intro response w h
      refine wp_probe h fun nowUnix _ => ?_
      split
      · exact h
      · rename_i c _
        exact ⟨h, hR c _ (h.logged (.issued c) nofun)⟩

theorem wp_openBinding {b : ActiveBinding} {w : World} (h : Registered E w)
    (hs : Sourced E b.bindingId w.log) :
    Cmd.wp E (Registered E) (fun _ => Registered E) (openBinding P b) (fun _ => Registered E) w := by
  rw [openBinding, Cmd.wp_bind, saveActiveBinding, Cmd.wp_ite]
  refine ⟨fun _ => h, fun _ => ?_⟩
  refine wp_atomicOwnerWrite h (fun _ _ => h) (fun _ _ => h.handoff hs) ?_
  refine (?_ : Changes P [.write .localAdmission, .remove .activeBinding] _).registered
    (by decide) (h.handoff hs) fun _ _ h => h
  refine .bind (.attempt (changes_openLocalAdmission (by decide))) fun result => ?_
  cases result with
  | ok _ => exact .pure _
  | error e =>
    refine .bind (.attempt (changes_clearActiveBinding (by decide))) fun _ => ?_
    exact .bind (.attempt (changes_closeLocalAdmission (by decide))) fun _ => .probe _

/-- The binding of a response has its ID. -/
theorem activeBindingFromResponse_bindingId {deviceId expectedTaskSpace : String}
    {response : Json} {b : ActiveBinding}
    (h : activeBindingFromResponse deviceId expectedTaskSpace response = .ok b) :
    (get (responseData response) "id").bind asStr = some b.bindingId := by
  obtain ⟨id, hid, h⟩ := bind_ok h
  obtain ⟨generation, -, h⟩ := bind_ok h
  obtain ⟨mode, -, h⟩ := bind_ok h
  obtain ⟨label, -, h⟩ := bind_ok h
  obtain ⟨-, h⟩ := ite_error_ok.mp h
  obtain ⟨-, h⟩ := ite_error_ok.mp h
  cases h
  cases hv : (get (responseData response) "id").bind asStr with
  | none =>
    rw [hv] at hid
    cases hid
  | some v =>
    rw [hv] at hid
    cases hid
    rfl

/-- A claim or a resume stores a handoff of its own. -/
theorem wp_persistActiveBinding {command : Lifecycle} {deviceId expectedTaskSpace : String}
    {response : Json} {w : World} (hc : command = .claim ∨ command = .resume)
    (h : Registered E w) :
    Cmd.wp E (Registered E) (fun _ => Registered E)
      (persistActiveBinding P command deviceId expectedTaskSpace response)
      (fun _ => Registered E) w := by
  rw [persistActiveBinding]
  refine wp_liftFailure_bind (fun _ _ => h) fun b _ => ?_
  rw [if_pos (by rcases hc with rfl | rfl <;> decide), Cmd.wp_bind, wp_record]
  refine ⟨h, wp_openBinding ?_ (.inl ⟨hc, rfl⟩)⟩
  exact h.logged (.confirmed _) nofun

/-- A policy change stores a handoff for the binding it has been confirmed for. -/
theorem wp_persistConfirmed {deviceId expectedTaskSpace : String} {response : Json} {w : World}
    (h : Registered E w)
    (hs : ∀ b, activeBindingFromResponse deviceId expectedTaskSpace response = .ok b →
      Sourced E b.bindingId w.log) :
    Cmd.wp E (Registered E) (fun _ => Registered E)
      (persistActiveBinding P .confirmAllowlist deviceId expectedTaskSpace response)
      (fun _ => Registered E) w := by
  rw [persistActiveBinding]
  refine wp_liftFailure_bind (fun _ _ => h) fun b hb => ?_
  rw [if_neg (by decide)]
  exact wp_openBinding h (hs b hb)

/-- The confirmation of a policy change is of the policy and of the binding it is logged for. -/
theorem confirmedAllowlistGeneration_bindingId {response : Json} {bindingId deviceId : String}
    {generation next : UInt64} {policy : VerifiedLocalPolicy} {expectedTaskSpace : Option String}
    (h : confirmedAllowlistGeneration response bindingId deviceId generation policy
      expectedTaskSpace = .ok next) :
    (get (responseData response) "id").bind asStr = some bindingId := by
  obtain ⟨data, hdata, h⟩ := bind_ok h
  obtain ⟨nextGeneration, -, h⟩ := bind_ok h
  obtain ⟨taskSpace, -, h⟩ := bind_ok h
  have hid : (get data "id").bind asStr = some bindingId := by
    by_contra hn
    rw [if_neg fun hall => hn hall.1] at h
    cases h
  have hd : responseData response = data := by
    rw [responseData]
    cases hv : get response "data" with
    | none =>
      rw [hv] at hdata
      cases hdata
    | some v =>
      rw [hv] at hdata
      cases v with
      | obj ms =>
        cases hdata
        rfl
      | _ => cases hdata
  rw [hd]
  exact hid

/-- Between the clearing of the old handoff and the writing of the new one, the policy is
replaced by the one the server has confirmed. -/
theorem wp_confirmBindingAllowlist {bindingId : String} {generation : Option String}
    {update : PreparedPolicyUpdate} {verified : VerifiedLocalPolicy} {w : World}
    (h : Registered E w) (hv : VerifiedAs E update.next verified) :
    Cmd.wp E (Registered E) (fun _ => Registered E)
      (confirmBindingAllowlist P bindingId generation update verified)
      (fun _ => Registered E) w := by
  rw [confirmBindingAllowlist.eq_def]
  cases generation with
  | none => exact h
  | some text =>
    refine wp_probe h fun generation _ => ?_
    refine wp_probe h fun nowUnix _ => ?_
    refine wp_probe h fun s _ => ?_
    refine wp_probe h fun credential _ => ?_
    refine wp_probe h fun identity _ => ?_
    refine wp_probe h fun s' _ => ?_
    refine wp_probe h fun active _ => ?_
    refine wp_check h fun _ => ?_
    refine wp_probe h fun client _ => ?_
    refine wp_check h fun _ => ?_
    cases verified.allowlistRootsDigest with
    | none => exact h
    | some digest =>
      rw [Cmd.wp_bind]
      refine (changes_bindingRequest sent_mem).registered (by decide) h ?_
      intro result w h
      refine wp_liftFailure_bind (fun _ _ => h) fun next hnext => ?_
      have hid := confirmedAllowlistGeneration_bindingId hnext
      rw [Cmd.wp_bind, wp_record]
      refine ⟨h, ?_⟩
      have h1 := h.logged (.confirmed
        ⟨.confirmAllowlist, bindingId, responseStatus result, some verified⟩) nofun
      rw [Cmd.wp_bind]
      refine wp_remove h1 (fun _ _ => h1) ?_
      have h2 := h1.cleared
      rw [Cmd.wp_bind]
      refine wp_commitPolicyUpdate h2 rfl ?_
      have h3 := h2.replacedPolicy rfl update.next
      cases active with
      | none => exact h3
      | some active =>
        refine wp_persistConfirmed h3 fun b hb => ⟨_, _, _, rfl, rfl, ?_, verified, rfl, hv⟩
        rw [activeBindingFromResponse_bindingId hb] at hid
        exact (Option.some.inj hid).symm

theorem wp_synchronizeAndCommit {build : Build} {args : List String} {runtime : String}
    {update : PreparedPolicyUpdate} {verified : VerifiedLocalPolicy} {w : World}
    (h : Registered E w) {R : Unit → World → Prop} (hR : ∀ w, Registered E w → R () w) :
    Cmd.wp E (Registered E) (fun _ => Registered E)
      (synchronizeAndCommit P build args runtime update verified) R w := by
  rw [synchronizeAndCommit, Cmd.wp_bind]
  refine wp_synchronizeRegisteredPolicy h fun credential w h => ?_
  rw [Cmd.wp_bind]
  refine wp_remove h (fun _ _ => h) ?_
  have h1 := h.cleared
  rw [Cmd.wp_bind]
  refine wp_commitPolicyUpdate h1 rfl ?_
  have hsave : Changes P [.write .credential] (save P credential) := changes_save (by decide)
  exact hsave.registered (by decide) (h1.replacedPolicy rfl update.next) fun _ => hR

theorem wp_allowlistSet {build : Build} {args : List String} {w : World} (h : Registered E w) :
    Cmd.wp E (Registered E) (fun _ => Registered E) (allowlistSet P build args)
      (fun _ => Registered E) w := by
  rw [allowlistSet.eq_def]
  refine wp_check h fun _ => ?_
  refine wp_probe h fun binding _ => ?_
  refine wp_probe h fun generation _ => ?_
  refine wp_check h fun _ => ?_
  refine wp_check h fun _ => ?_
  refine wp_probe h fun _ _ => ?_
  refine wp_probe h fun runtime _ => ?_
  refine wp_probe h fun _ _ => ?_
  refine wp_probe h fun roots _ => ?_
  refine wp_check h fun _ => ?_
  refine wp_probe h fun update _ => ?_
  rw [Cmd.wp_bind]
  refine wp_orCompatibilityMismatch h (fun _ => h) fun verified hv => ?_
  cases binding with
  | none => exact wp_synchronizeAndCommit h fun _ h => h
  | some bindingId => exact wp_confirmBindingAllowlist h ⟨_, _, w, hv⟩

theorem wp_learningSet {build : Build} {args : List String} {w : World} (h : Registered E w) :
    Cmd.wp E (Registered E) (fun _ => Registered E) (learningSet P build args)
      (fun _ => Registered E) w := by
  rw [learningSet.eq_def]
  refine wp_check h fun _ => ?_
  refine wp_probe h fun paths _ => ?_
  split
  · refine wp_probe h fun _ _ => ?_
    refine wp_probe h fun update _ => ?_
    refine wp_probe h fun runtime _ => ?_
    refine wp_probe h fun verified _ => ?_
    rw [Cmd.wp_bind]
    refine wp_synchronizeAndCommit h fun w h => ?_
    refine wp_probe h fun _ _ => ?_
    rw [Cmd.wp_ite]
    exact ⟨fun _ => h, fun _ => h⟩
  · exact h

theorem wp_claim {build : Build} {args : List String} {w : World} (h : Registered E w) :
    Cmd.wp E (Registered E) (fun _ => Registered E) (claim P build args)
      (fun _ => Registered E) w := by
  rw [claim.eq_def]
  cases args.head? with
  | none => exact h
  | some session =>
    refine wp_check h fun _ => ?_
    refine wp_probe h fun nowUnix _ => ?_
    refine wp_probe h fun s _ => ?_
    refine wp_probe h fun credential _ => ?_
    refine wp_probe h fun policy _ => ?_
    refine wp_probe h fun identity _ => ?_
    refine wp_probe h fun client _ => ?_
    rw [Cmd.wp_bind]
    have hclaim : Changes P [.sent] (client.claim P
        [("tool_session_id", .str session), ("ego_browser_device_id", .str credential.deviceId),
          ("authorization_mode", .str "ego_browser_script_full_trust"),
          ("authorization_policy_version", ofU64 1),
          ("release_profile", .str identity.releaseProfile),
          ("credential_profile", .str identity.credentialProfile),
          ("remote_platform", .str "linux"), ("local_platform", .str "macos"),
          ("device_capabilities", strs policy.2.capabilities),
          ("allowlist_revision", ofU64 policy.2.allowlistRevision),
          ("learning_bundle_digest", optStr policy.2.learningBundleDigest),
          ("task_space_label", .str ("agent-remote:" ++ session)),
          ("user_confirmation", .bool true)]) :=
      .bind (changes_addProofForGeneration (by decide)) fun _ =>
        changes_postWithIdempotency (by decide)
    exact hclaim.registered (by decide) h fun result w h => wp_persistActiveBinding (.inl rfl) h

theorem wp_resume {build : Build} {args : List String} {w : World} (h : Registered E w) :
    Cmd.wp E (Registered E) (fun _ => Registered E) (resume P build args)
      (fun _ => Registered E) w := by
  rw [resume.eq_def]
  refine wp_probe h fun b _ => ?_
  refine wp_probe h fun s _ => ?_
  refine wp_probe h fun handoff _ => ?_
  refine wp_check h fun _ => ?_
  refine wp_probe h fun policy _ => ?_
  rw [Cmd.wp_bind]
  exact (changes_bindingRequest sent_mem).registered (by decide) h
    fun result w h => wp_persistActiveBinding (.inr rfl) h

end

/-! ## Runs -/

/-- The commands that replace the policy or confirm a handoff. -/
def DeviceCommand.isPolicyCommand : DeviceCommand → Bool
  | .ensure _ => true
  | .allowlistSet _ => true
  | .learningSet _ => true
  | .claim _ => true
  | .resume _ => true
  | _ => false

/-- The commands of a registered device, one after the other. -/
def policyRuns : Run.System Invocation World :=
  (commands E (fun w => w.store.credential.isSome ∧ w.log = []) (·.run P)).restrict
    fun _ i => i.command.isPolicyCommand

/-- An enrollment under a handoff has no bundle to put in place of the stored policy's. -/
def NoMigration (w : World) (i : Invocation) : Prop :=
  ∀ args, i.command = .ensure args → w.store.activeBinding = none ∨ ¬ Offers E i.build w

theorem Registered.run {w : World} {i : Invocation} (h : Registered E w)
    (hi : i.command.isPolicyCommand) (ho : NoMigration E w i) :
    Cmd.wp E (Registered E) (fun _ => Registered E) (i.run P) (fun _ => Registered E) w := by
  cases hcommand : i.command with
  | ensure args =>
    rw [Invocation.run, hcommand]
    exact wp_ensure h (ho args hcommand)
  | allowlistSet args =>
    rw [Invocation.run, hcommand]
    exact wp_allowlistSet h
  | learningSet args =>
    rw [Invocation.run, hcommand]
    exact wp_learningSet h
  | claim args =>
    rw [Invocation.run, hcommand]
    exact wp_claim h
  | resume args =>
    rw [Invocation.run, hcommand]
    exact wp_resume h
  | _ =>
    rw [hcommand] at hi
    cases hi

/-- The policy never changes under a live handoff, in any run in which no enrollment moves the
policy to another bundle while a handoff is stored. -/
theorem handoff_kept {w : World} (h : ((policyRuns P E).restrict (NoMigration E)).Reachable w) :
    PolicyKept E w := by
  have hr : Registered E w := by
    refine Run.System.invariant ?_ ?_ h
    · rintro w ⟨hc, hl⟩
      refine ⟨⟨?_, ?_⟩, hc⟩
      · intro e he
        rw [hl] at he
        cases he
      · intro b _
        rw [hl]
        trivial
    · rintro w i w' hw ⟨⟨hstep, hi⟩, ho⟩
      exact Cmd.wp_passes hstep (hw.run P E hi ho) (fun _ _ h => h) (fun _ _ h => h)
  exact hr.toPolicyKept

set_option maxRecDepth 4000

/-! ## An enrollment under a handoff -/

/-- The policy an update of the release finds. -/
def stalePolicy : LocalPolicy :=
  ⟨1, 1, 1, [], none, some "/opt/releases/1.0.0/learning-bundle"⟩

def movedPolicy : LocalPolicy :=
  ⟨1, 2, 1, [], none, some "/opt/releases/2.0.0/learning-bundle"⟩

def movedInputs : LocalRegistrationInputs where
  runtime := "2.0.0"
  policy := ⟨2, 1, none, none, some ⟨"digest-2", "2", "2.0.0", "2.0.0"⟩⟩
  signerCertificateSha256 := TRUSTED_COMMUNITY_SIGNER_CERTIFICATE_SHA256
  policyUpdate := some ⟨stalePolicy, movedPolicy⟩

def movedRegistration : Registration :=
  ⟨sampleBuild, sampleIdentity, movedInputs.runtime, movedInputs.policy,
    movedInputs.signerCertificateSha256, "ensure"⟩

def renewedCredential : CommunityCredential := { sampleCredential with revision := 2 }

def renewedIssued : List (String × Json) :=
  [("ego_browser_device_id", .str "device-1"), ("access_token", .str "egbc_token"),
    ("id", .str "credential-1"), ("credential_profile", .str SUPPORTED_CREDENTIAL_PROFILE),
    ("device_generation", ofU64 1), ("credential_revision", ofU64 2), ("token_type", .str "bearer"),
    ("credential_scope", .str "device"), ("expires_in", ofU64 4999),
    ("credential_expires_at", .str "1970-01-01T01:23:20Z")]

def movedReply : Json :=
  registrationReply samplePlatform movedRegistration sampleOrigin (.obj renewedIssued)

def movedAnswers : World → (q : Query) → Option q.Answer := releaseAnswers fun _ => movedReply

/-- A registered device with a handoff, whose policy names the bundle of an older release. -/
def underHandoff : World where
  store := { Store.empty with
    credential := some sampleCredential
    key := some (encodeIdentity sampleIdentity)
    policy := some stalePolicy
    activeBinding := some (sampleBinding "binding-1") }
  log := []

def enrolling : World := underHandoff.stored { underHandoff.store with
  identityMetadata := some
    ⟨1, "device-1", sampleOrigin, COMMUNITY_PROFILE_ID, SUPPORTED_CREDENTIAL_PROFILE⟩ }

def registering : World := enrolling.stored { enrolling.store with
  pendingRegistration := some (Ensure.registrationRecord samplePlatform sampleOrigin "ensure"
    sampleIdentity (encodeB64url sampleKey.bytes) 1) }

def ensureArgs : List String := ["--token", "token"]

theorem movedReply_accepted : credentialFromRegistrationResponseStrict samplePlatform movedReply
    sampleOrigin sampleIdentity TRUSTED_COMMUNITY_SIGNER_CERTIFICATE_SHA256
    (registrationPayload samplePlatform movedRegistration) (some 1) 1 = .ok renewedCredential :=
  (registrationReply_accepted samplePlatform movedRegistration sampleOrigin renewedIssued (some 1)
    1).trans (ok_of_toOption rfl)

/-- The policy was replaced while a handoff was stored. -/
def ReplacedUnder (w : World) : Prop :=
  ∃ e ∈ w.log, ∃ p, e.event = .replacedPolicy p ∧ e.store.activeBinding.isSome

theorem eval_commitPolicyUpdate {w : World} (hp : w.store.policy = some stalePolicy) :
    (commitPolicyUpdate ⟨stalePolicy, movedPolicy⟩).eval movedAnswers w =
      some ((), (w.logged (.replacedPolicy movedPolicy)).stored
        { w.store with policy := some movedPolicy }) := by
  have hl : w.store.loadPolicyDocument = .ok stalePolicy := by
    rw [Store.loadPolicyDocument, hp, ownerFile_some (f := fun p : LocalPolicy => p.toJson.size)
      (by decide)]
  rw [commitPolicyUpdate, Cmd.eval_bind w.store w rfl, hl, Cmd.eval_bind stalePolicy w rfl,
    if_neg (by decide)]
  rfl

theorem commit_replaces {w : World} (hp : w.store.policy = some stalePolicy)
    (hb : w.store.activeBinding.isSome) : Cmd.Meets (Cmd.Given movedAnswers)
      (Ensure.commit samplePlatform sampleOrigin movedRegistration none (some sampleCredential)
        movedInputs.policyUpdate movedReply) w ReplacedUnder := by
  rw [Ensure.commit]
  refine Cmd.Meets.after (1 : UInt64) w rfl ?_
  have haccepted := movedReply_accepted
  rw [movedRegistration] at haccepted ⊢
  dsimp only [Option.map_some, sampleCredential]
  rw [if_neg (by decide)]
  erw [haccepted]
  dsimp only
  rw [if_neg (by decide)]
  refine Cmd.Meets.after () _ rfl ?_
  refine Cmd.Meets.after () _ (eval_save (by decide) (by decide) _) ?_
  refine Cmd.Meets.after () _ (eval_commitPolicyUpdate hp) ?_
  exact .here ⟨_, List.mem_cons_self, _, rfl, hb⟩

theorem register_replaces : Cmd.Meets (Cmd.Given movedAnswers)
    (Ensure.register samplePlatform sampleBuild ensureArgs sampleOrigin "ensure" (some "token")
      sampleIdentity none (some sampleCredential) (some movedInputs)) enrolling ReplacedUnder := by
  rw [Ensure.register]
  refine Cmd.Meets.after (encodeB64url sampleKey.bytes) registering rfl ?_
  refine Cmd.Meets.after movedInputs registering rfl ?_
  refine Cmd.Meets.after movedReply _ rfl ?_
  exact commit_replaces rfl rfl

theorem finish_replaces : Cmd.Meets (Cmd.Given movedAnswers)
    (Ensure.finish samplePlatform sampleBuild ensureArgs sampleOrigin "ensure" (some "token")
      sampleIdentity none (some sampleCredential)) enrolling ReplacedUnder := by
  have hmatches : (some sampleCredential).filter
      (credentialMatchesIdentity · sampleIdentity sampleOrigin) = some sampleCredential :=
    rfl
  rw [Ensure.finish, hmatches]
  refine Cmd.Meets.after (1 : UInt64) enrolling rfl ?_
  refine Cmd.Meets.after true enrolling rfl ?_
  dsimp only
  rw [if_pos rfl]
  refine Cmd.Meets.after movedInputs enrolling rfl ?_
  rw [if_neg (by decide)]
  exact register_replaces

theorem ensure_replaces : Cmd.Meets (Cmd.Given movedAnswers)
    (ensure samplePlatform sampleBuild ensureArgs) underHandoff ReplacedUnder := by
  rw [ensure]
  refine Cmd.Meets.after () underHandoff rfl ?_
  refine Cmd.Meets.after none underHandoff rfl ?_
  refine Cmd.Meets.after underHandoff.store underHandoff rfl ?_
  refine Cmd.Meets.after (some sampleCredential) underHandoff rfl ?_
  refine Cmd.Meets.after none underHandoff rfl ?_
  refine Cmd.Meets.after sampleOrigin underHandoff rfl ?_
  refine Cmd.Meets.after (some "token") underHandoff rfl ?_
  refine Cmd.Meets.after COMMUNITY_PROFILE_ID underHandoff rfl ?_
  refine Cmd.Meets.after SUPPORTED_CREDENTIAL_PROFILE underHandoff rfl ?_
  rw [if_neg (by decide)]
  dsimp only
  rw [if_pos (by decide)]
  refine Cmd.Meets.after () underHandoff rfl ?_
  refine Cmd.Meets.after sampleIdentity underHandoff rfl ?_
  rw [if_neg (by decide), if_neg (by decide)]
  refine Cmd.Meets.after none underHandoff rfl ?_
  have hmode : Ensure.enrollmentMode ensureArgs none (some sampleCredential) none = "ensure" :=
    rfl
  rw [hmode, if_neg (by decide)]
  refine Cmd.Meets.after () enrolling rfl ?_
  exact finish_replaces

theorem start_underHandoff : (policyRuns samplePlatform (Cmd.Given movedAnswers)).init
    underHandoff :=
  ⟨rfl, rfl⟩

/-- The update of a release moves the policy under a handoff that was given before it. -/
theorem handoff_moved : ¬ ∀ P E w, (policyRuns P E).Reachable w → PolicyKept E w := by
  intro h
  obtain ⟨w, hpasses, e, he, p, hp, hb⟩ := ensure_replaces
  have hr : (policyRuns samplePlatform (Cmd.Given movedAnswers)).Reachable w :=
    (Run.System.Reachable.start start_underHandoff).next ⟨sampleBuild, .ensure ensureArgs⟩
      ⟨hpasses, rfl⟩
  rw [(h _ _ _ hr).alone e he p hp] at hb
  cases hb

/-! ## A policy update of a paused binding -/

/-- The policy is confirmed for the binding, which the server has paused for it. -/
def pausedData : Json :=
  .obj [("id", .str "binding-1"), ("ego_browser_device_id", .str "device-1"),
    ("generation", ofU64 2), ("status", .str "paused"), ("stop_reason", .str "allowlist_changed"),
    ("authorization_mode", .str "ego_browser_script_full_trust"), ("allowlist_revision", ofU64 2),
    ("allowlist_roots_digest", .str "digest-1"), ("learning_bundle_digest", .null),
    ("capabilities", strs (CORE_CAPABILITIES ++ ["ego_browser_file_allowlist_v1"])),
    ("task_space_label", .str "agent-remote:session-1")]

def pausedReply : Json := .obj [("data", pausedData)]

/-- The installed release, with an allowlist that can be verified. -/
def pausedAnswers (w : World) : (q : Query) → Option q.Answer
  | .allowlist roots => some (some (roots, "digest-1") : Option (List String × String))
  | q => releaseAnswers (fun _ => pausedReply) w q

def pausedArgs : List String :=
  ["--binding", "binding-1", "--binding-generation", "1", "--confirm", "/work"]

/-- A device whose binding is paused. -/
def pausedStore : Store := { Store.empty with
  credential := some sampleCredential
  key := some (encodeIdentity sampleIdentity)
  activeBinding := some (sampleBinding "binding-1") }

def pausedWorld : World := ⟨pausedStore, []⟩

def widenedPolicy : LocalPolicy := ⟨1, 2, 2, ["/work"], some "digest-1", none⟩

def widenedVerified : VerifiedLocalPolicy := ⟨2, 2, some "digest-1", some ["/work"], none⟩

def widening : PreparedPolicyUpdate := ⟨default, widenedPolicy⟩

def reopenedBinding : ActiveBinding := { sampleBinding "binding-1" with generation := 2 }

def pausedClient : DeviceApiClient := ⟨sampleOrigin, "egbc_token", sampleIdentity⟩

theorem pausedReply_accepted : confirmedAllowlistGeneration pausedReply "binding-1" "device-1" 1
    widenedVerified (some "agent-remote:session-1") = .ok 2 := by
  have hdata : (get pausedReply "data").bind asObject = some pausedData := rfl
  have hid : get pausedData "id" = some (.str "binding-1") := rfl
  have hdevice : get pausedData "ego_browser_device_id" = some (.str "device-1") := rfl
  have hgeneration : (get pausedData "generation").bind asU64 = some 2 := by decide
  have hstatus : get pausedData "status" = some (.str "paused") := rfl
  have hreason : get pausedData "stop_reason" = some (.str "allowlist_changed") := rfl
  have hmode : get pausedData "authorization_mode" =
    some (.str "ego_browser_script_full_trust") := rfl
  have hrevision : (get pausedData "allowlist_revision").bind asU64 =
    some widenedVerified.allowlistRevision := by decide
  have hroots : get pausedData "allowlist_roots_digest" =
    some (optStr widenedVerified.allowlistRootsDigest) := rfl
  have hbundle : get pausedData "learning_bundle_digest" =
    some (optStr widenedVerified.learningBundleDigest) := rfl
  have hcapabilities : get pausedData "capabilities" =
    some (strs widenedVerified.capabilities) := rfl
  have hlabel : get pausedData "task_space_label" = some (.str "agent-remote:session-1") := rfl
  have hnext : checkedSucc 1 = some 2 := by decide
  have hmatches : stringArrayMembersMatch (some (strs widenedVerified.capabilities))
      (some (strs widenedVerified.capabilities)) = true :=
    stringArrayMembersMatch_self (stringArray_strs _)
  simp [confirmedAllowlistGeneration, present, bind, Except.bind, hdata, hid, hdevice, hgeneration,
    hstatus, hreason, hmode, hrevision, hroots, hbundle, hcapabilities, hlabel, hnext, hmatches,
    asStr]

/-- The world when the server has answered. -/
def askedWorld : World :=
  (pausedWorld.logged (.sent ⟨sampleOrigin, challengesPath, "egbc_token", none,
    pausedClient.challengePayload 1 "confirm_allowlist" (some "binding-1")⟩ none)).logged
      (.sent ⟨sampleOrigin, "/api/v1/ego-browser/bindings/binding-1/allowlist/confirm",
        "egbc_token", none, .obj [("generation", ofU64 1), ("binding_generation", ofU64 1),
          ("expected_revision", ofU64 1), ("roots_digest", .str "digest-1"),
          ("user_confirmation", .bool true)]⟩ none)

theorem eval_asked : (pausedClient.confirmAllowlist samplePlatform "binding-1" 1 1 "digest-1").eval
    pausedAnswers pausedWorld = some (pausedReply, askedWorld) :=
  rfl

def confirmedWorld : World :=
  askedWorld.logged (.confirmed
    ⟨.confirmAllowlist, "binding-1", responseStatus pausedReply, some widenedVerified⟩)

def widenedWorld : World :=
  ((confirmedWorld.stored { pausedStore with activeBinding := none }).logged
    (.replacedPolicy widenedPolicy)).stored
      { pausedStore with activeBinding := none, policy := some widenedPolicy }

theorem eval_widening : (commitPolicyUpdate widening).eval pausedAnswers
    (confirmedWorld.stored { pausedStore with activeBinding := none }) =
      some ((), widenedWorld) :=
  rfl

def reopenedStore : Store := { pausedStore with
  policy := some widenedPolicy
  activeBinding := some reopenedBinding
  localAdmission :=
    some ⟨1, LOCAL_ADMISSION_OPEN, some "device-1", some 1, some "binding-1", some 2, 1⟩ }

def reopenedWorld : World := ⟨reopenedStore, widenedWorld.log⟩

theorem eval_reopening : (openBinding samplePlatform reopenedBinding).eval pausedAnswers
    widenedWorld = some ((), reopenedWorld) := by
  have hopen : Changes samplePlatform [.write .activeBinding, .remove .activeBinding,
      .write .localAdmission] (openBinding samplePlatform reopenedBinding) :=
    changes_openBinding (by decide) (by decide) (by decide)
  exact eval_unlogged hopen rfl

theorem confirm_moves : Cmd.Meets (Cmd.Given pausedAnswers)
    (confirmBindingAllowlist samplePlatform "binding-1" (some "1") widening widenedVerified)
    pausedWorld (· = reopenedWorld) := by
  rw [confirmBindingAllowlist]
  refine Cmd.Meets.after (1 : UInt64) pausedWorld rfl ?_
  refine Cmd.Meets.after (1 : UInt64) pausedWorld rfl ?_
  refine Cmd.Meets.after pausedStore pausedWorld rfl ?_
  refine Cmd.Meets.after sampleCredential pausedWorld rfl ?_
  refine Cmd.Meets.after sampleIdentity pausedWorld rfl ?_
  refine Cmd.Meets.after pausedStore pausedWorld rfl ?_
  refine Cmd.Meets.after (some (sampleBinding "binding-1")) pausedWorld rfl ?_
  rw [if_neg (by decide)]
  refine Cmd.Meets.after pausedClient pausedWorld rfl ?_
  rw [if_neg (by decide)]
  refine Cmd.Meets.after pausedReply askedWorld eval_asked ?_
  erw [pausedReply_accepted]
  refine Cmd.Meets.after (2 : UInt64) askedWorld rfl ?_
  refine Cmd.Meets.after () confirmedWorld rfl ?_
  refine Cmd.Meets.after () _ rfl ?_
  refine Cmd.Meets.after () widenedWorld eval_widening ?_
  dsimp only
  unfold persistActiveBinding
  refine Cmd.Meets.after reopenedBinding widenedWorld rfl ?_
  rw [if_neg (by decide)]
  exact ⟨_, ⟨_, Cmd.returns_eval eval_reopening⟩, rfl⟩

/-- The handoff is cleared, the policy replaced, and the handoff stored anew. -/
theorem allowlist_confirms : Cmd.Meets (Cmd.Given pausedAnswers)
    (allowlistSet samplePlatform sampleBuild pausedArgs) pausedWorld (· = reopenedWorld) := by
  rw [allowlistSet, if_neg (by decide)]
  refine Cmd.Meets.after (some "binding-1") pausedWorld rfl ?_
  refine Cmd.Meets.after (some "1") pausedWorld rfl ?_
  rw [if_neg (by decide), if_neg (by decide)]
  refine Cmd.Meets.after () pausedWorld rfl ?_
  refine Cmd.Meets.after "2.0.0" pausedWorld rfl ?_
  refine Cmd.Meets.after (default, ⟨1, 1, none, none, none⟩) pausedWorld rfl ?_
  refine Cmd.Meets.after ["/work"] pausedWorld rfl ?_
  rw [if_neg (by decide)]
  refine Cmd.Meets.after widening pausedWorld rfl ?_
  refine Cmd.Meets.after widenedVerified pausedWorld rfl ?_
  exact confirm_moves

theorem loadPolicyDocument_congr {s s' : Store} (h : s.policy = s'.policy) :
    s.loadPolicyDocument = s'.loadPolicyDocument := by
  rw [Store.loadPolicyDocument, Store.loadPolicyDocument, h]

/-- No release puts a bundle where the policy names none. -/
theorem not_offers_of_unbundled {E : Surroundings} {build : Build} {w : World} {p : LocalPolicy}
    (hp : w.store.loadPolicyDocument = .ok p) (hn : p.learningBundleRoot = none) :
    ¬ Offers E build w := by
  rintro ⟨release, runtime, w', r, hw, hr, hs⟩
  have hnone : r.2 = none := by
    refine Cmd.wp_returns (I := fun _ => True) (F := fun _ _ => True)
      (R := fun r _ => r.2 = none) hr ?_
    show Cmd.wp E _ _ (liftM (prepareManagedLearningBundleUpdate build release runtime) :
      Command _) _ w'
    rw [prepareManagedLearningBundleUpdate]
    simp only [probe_bind, Cmd.wp_bind, wp_theStore]
    rw [loadPolicyDocument_congr hw, hp]
    refine wp_lift_ok rfl ?_
    refine Probe.wp _ trivial (fun _ _ => trivial) fun outcome _ => ?_
    cases outcome with
    | ok verified => rfl
    | error e =>
      cases e with
      | credential c =>
        cases c with
        | learningBundleInvalid =>
          refine Probe.wp_bind trivial (fun _ _ => trivial) fun _ _ => ?_
          refine Probe.wp_bind trivial (fun _ _ => trivial) fun canonical _ => ?_
          cases canonical with
          | none => trivial
          | some canonical =>
            simp only [hn]
            -- whatever the path is, the missing bundle is an error
            rw [probe_ite, Cmd.wp_ite]
            refine ⟨fun _ => trivial, fun _ => ?_⟩
            rw [probe_ite, Cmd.wp_ite]
            exact ⟨fun _ => trivial, fun _ => trivial⟩
        | _ => trivial
      | _ => trivial
  rw [hnone] at hs
  cases hs

def keptWorld : World := reopenedWorld.stored { reopenedStore with
  identityMetadata := some
    ⟨1, "device-1", sampleOrigin, COMMUNITY_PROFILE_ID, SUPPORTED_CREDENTIAL_PROFILE⟩ }

def keptInputs : LocalRegistrationInputs :=
  ⟨"2.0.0", widenedVerified, TRUSTED_COMMUNITY_SIGNER_CERTIFICATE_SHA256, none⟩

theorem ensure_keeps : Cmd.Meets (Cmd.Given pausedAnswers)
    (ensure samplePlatform sampleBuild []) reopenedWorld (· = keptWorld) := by
  have hfind : Changes samplePlatform [.write .pendingRegistration]
      (Ensure.findPending samplePlatform []) := changes_findPending (by decide)
  have hidentity : Changes samplePlatform [.write .key] (Ensure.findIdentity samplePlatform
      sampleOrigin COMMUNITY_PROFILE_ID SUPPORTED_CREDENTIAL_PROFILE none (some sampleCredential)
      none) := changes_findIdentity (by decide)
  have hname : Changes samplePlatform [.write .identityMetadata] (saveIdentityMetadata
      samplePlatform sampleIdentity sampleOrigin) := changes_saveIdentityMetadata (by decide)
  rw [ensure]
  refine Cmd.Meets.after () reopenedWorld rfl ?_
  refine Cmd.Meets.after none reopenedWorld (eval_unlogged hfind rfl) ?_
  refine Cmd.Meets.after reopenedStore reopenedWorld rfl ?_
  refine Cmd.Meets.after (some sampleCredential) reopenedWorld rfl ?_
  refine Cmd.Meets.after none reopenedWorld rfl ?_
  refine Cmd.Meets.after sampleOrigin reopenedWorld rfl ?_
  refine Cmd.Meets.after none reopenedWorld rfl ?_
  refine Cmd.Meets.after COMMUNITY_PROFILE_ID reopenedWorld rfl ?_
  refine Cmd.Meets.after SUPPORTED_CREDENTIAL_PROFILE reopenedWorld rfl ?_
  rw [if_neg (by decide)]
  dsimp only
  rw [if_pos (by decide)]
  refine Cmd.Meets.after () reopenedWorld rfl ?_
  refine Cmd.Meets.after sampleIdentity reopenedWorld (eval_unlogged hidentity rfl) ?_
  rw [if_neg (by decide), if_neg (by decide)]
  refine Cmd.Meets.after none reopenedWorld rfl ?_
  have hmode : Ensure.enrollmentMode [] none (some sampleCredential) none = "ensure" :=
    rfl
  rw [hmode, if_neg (by decide)]
  refine Cmd.Meets.after () keptWorld (eval_unlogged hname rfl) ?_
  have hmatches : (some sampleCredential).filter
      (credentialMatchesIdentity · sampleIdentity sampleOrigin) = some sampleCredential :=
    rfl
  rw [Ensure.finish, hmatches]
  refine Cmd.Meets.after (1 : UInt64) keptWorld rfl ?_
  refine Cmd.Meets.after true keptWorld rfl ?_
  dsimp only
  rw [if_pos rfl]
  refine Cmd.Meets.after keptInputs keptWorld rfl ?_
  rw [if_pos (by decide)]
  exact .here rfl

/-- The policy is replaced without its handoff, and an enrollment leaves the new handoff alone. -/
theorem handoff_kept_replaced :
    ((policyRuns samplePlatform (Cmd.Given pausedAnswers)).restrict
      (NoMigration (Cmd.Given pausedAnswers))).Reachable keptWorld ∧
    (∃ e ∈ keptWorld.log, e.event = .replacedPolicy widenedPolicy) ∧
    keptWorld.store.activeBinding = some reopenedBinding ∧
    PolicyKept (Cmd.Given pausedAnswers) keptWorld := by
  obtain ⟨_, hallowlist, rfl⟩ := allowlist_confirms
  obtain ⟨_, hensure, rfl⟩ := ensure_keeps
  have hstart : ((policyRuns samplePlatform (Cmd.Given pausedAnswers)).restrict
      (NoMigration (Cmd.Given pausedAnswers))).Reachable pausedWorld := .start ⟨rfl, rfl⟩
  have hone : ((policyRuns samplePlatform (Cmd.Given pausedAnswers)).restrict
      (NoMigration (Cmd.Given pausedAnswers))).Reachable reopenedWorld := by
    refine hstart.next ⟨sampleBuild, .allowlistSet pausedArgs⟩ ⟨⟨hallowlist, rfl⟩, ?_⟩
    intro args hc
    cases hc
  have htwo : ((policyRuns samplePlatform (Cmd.Given pausedAnswers)).restrict
      (NoMigration (Cmd.Given pausedAnswers))).Reachable keptWorld := by
    refine hone.next ⟨sampleBuild, .ensure []⟩ ⟨⟨hensure, rfl⟩, ?_⟩
    intro args _
    have hp : reopenedWorld.store.loadPolicyDocument = .ok widenedPolicy :=
      ok_of_toOption rfl
    exact .inr (not_offers_of_unbundled hp rfl)
  have hlog : keptWorld.log = ⟨.replacedPolicy widenedPolicy,
      { pausedStore with activeBinding := none }⟩ :: confirmedWorld.log := rfl
  refine ⟨htwo, ⟨⟨.replacedPolicy widenedPolicy, { pausedStore with activeBinding := none }⟩, ?_,
    rfl⟩, rfl, handoff_kept samplePlatform _ htwo⟩
  rw [hlog]
  exact List.mem_cons_self

end Device
end EgoBridge
