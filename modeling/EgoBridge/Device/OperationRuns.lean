import EgoBridge.Device.OperationKeys

/-!
# Device.OperationRuns

Runs of the commands that register and rotate a device, and the keys they send.

* `RotatesAlike` — a rotation that takes up a stored key finds what was sent under it.
* `keys_kept`    — `OnePayload` in every run whose attempts do so.
-/

namespace EgoBridge
namespace Device

open Protocol Json Crash

section

variable {P : Platform} {E : Surroundings}

/-! ## Rotation -/

/-- All that was sent under the key had these profiles and this evidence. -/
def SentAs (w : World) (key releaseProfile credentialProfile : String) (e : Evidence) : Prop :=
  ∀ r, Sent w key r → r.identity.releaseProfile = releaseProfile ∧
    r.identity.credentialProfile = credentialProfile ∧ r.evidence = e

theorem stored_of_readPendingRotation {s : Store} {x : Option PendingRotation}
    (h : s.readPendingRotation = .ok x) : s.pendingRotation = x := by
  rw [Store.readPendingRotation] at h
  cases hp : s.pendingRotation with
  | none =>
    rw [hp] at h
    cases h
    rfl
  | some p =>
    rw [hp, ownerFile] at h
    generalize p.toJson.size = n at h
    by_cases hn : MAX_CREDENTIAL_BYTES < n
    · rw [if_pos hn] at h
      cases h
    · rw [if_neg hn] at h
      dsimp only at h
      obtain ⟨-, h⟩ := ite_error_ok.mp h
      cases h
      rfl

theorem wp_finishInterrupted {identity : DeviceIdentity} {c : CommunityCredential} {w : World}
    (h : Distinct P w) {R : Bool → World → Prop} (hfalse : R false w)
    (htrue : ∀ w', Distinct P w' → R true w') :
    Cmd.wp E (Distinct P) (fun _ => Distinct P) (finishInterruptedIdentityRotation P identity c)
      R w := by
  unfold finishInterruptedIdentityRotation
  rw [Cmd.wp_bind, wp_theStore, Cmd.wp_bind]
  refine wp_lift (fun _ _ => h) fun x _ => ?_
  cases x with
  | none => exact hfalse
  | some rotation =>
    refine wp_probe h fun prepared _ => ?_
    rw [Cmd.wp_ite]
    refine ⟨fun _ => hfalse, fun _ => ?_⟩
    refine wp_probe h fun s _ => ?_
    refine wp_probe h fun metadata _ => ?_
    refine wp_check h fun _ => ?_
    refine wp_probe h fun s' _ => ?_
    have hclear : Cmd.wp E (Distinct P) (fun _ => Distinct P) (do
        clearPendingRotationMetadata
        pure true : Command Bool) R w := by
      rw [Cmd.wp_bind]
      have hq : Quiet w (w.stored { w.store with pendingRotation := none }) :=
        .same rfl (fun _ h => h) fun _ h => by cases h
      exact wp_remove h (fun _ _ => h) (htrue _ (hq.distinct h))
    cases s'.loadActiveBinding identity.deviceId with
    | ok b => exact h
    | error e =>
      cases e with
      | missing => exact hclear
      | _ => exact h

/-- The record of the rotation to this identity. -/
theorem of_pendingRotationMatches {p : PendingRotation} {current next : DeviceIdentity}
    (h : pendingRotationMatches P p current next = true) (hid : current.deviceId = next.deviceId)
    {r : Registration} (hr : r.identity = next) (hm : r.enrollmentMode = "rotate") : p.Of P r := by
  subst hr
  rw [pendingRotationMatches] at h
  simp only [Bool.and_eq_true, decide_eq_true_eq] at h
  obtain ⟨⟨⟨⟨h1, h2⟩, h3⟩, h4⟩, -⟩ := h
  exact ⟨h1.trans hid, h2, h3, h4, hm⟩

/-- The stored key of a rotation may be used for what it was used for before. -/
theorem Distinct.entitledRotation (hP : NoCollision P) {w : World} (h : Distinct P w)
    {p : PendingRotation} (hp : w.store.pendingRotation = some p) {r : Registration}
    (hr : p.Of P r)
    (hs : SentAs w p.idempotencyKey r.identity.releaseProfile r.identity.credentialProfile
      r.evidence) : Entitled P w p.idempotencyKey r where
  sent := by
    intro r' hr'
    have hof := h.rotation p hp r' hr'
    obtain ⟨hrel, hcred, he⟩ := hs r' hr'
    refine payload_eq ⟨hof.deviceId.symm.trans hr.deviceId,
      hof.generation.symm.trans hr.generation, hrel, hcred, ?_, ?_⟩ he (hof.mode.trans hr.mode.symm)
    · exact hP.signing _ _ (hof.signing.symm.trans hr.signing)
    · exact hP.encryption _ _ (hof.encryption.symm.trans hr.encryption)
  registration := fun p' hp' hk => absurd hk (h.apart p' p hp' hp)
  rotation := by
    intro p' hp' _
    rw [hp] at hp'
    cases hp'
    exact hr

theorem wp_loadOrCreatePendingRotation (hP : NoCollision P) (hE : FreshKeys E)
    {current next : DeviceIdentity} {revision : UInt64} {w : World} (h : Distinct P w)
    {R : PendingRotation → World → Prop}
    (hR : ∀ p w', Distinct P w' → w'.store.policy = w.store.policy →
      (∀ r : Registration, r.identity = next → r.enrollmentMode = "rotate" →
        (w.store.pendingRotation = some p → current.releaseProfile = next.releaseProfile →
          current.credentialProfile = next.credentialProfile →
          SentAs w p.idempotencyKey next.releaseProfile next.credentialProfile r.evidence) →
        Entitled P w' p.idempotencyKey r) → R p w') :
    Cmd.wp E (Distinct P) (fun _ => Distinct P)
      (loadOrCreatePendingRotation P current next revision none) R w := by
  unfold loadOrCreatePendingRotation
  refine wp_check h fun _ => ?_
  refine wp_check h fun hscope => ?_
  simp only [not_or, not_not] at hscope
  obtain ⟨⟨hid, hrel, hcred⟩, -⟩ := hscope
  rw [Cmd.wp_bind, wp_theStore, Cmd.wp_bind]
  refine wp_lift (fun _ _ => h) fun x hx => ?_
  have hstored := stored_of_readPendingRotation hx
  cases x with
  | some p =>
    refine wp_check h fun hm => ?_
    refine wp_check h fun _ => ?_
    refine wp_check h fun _ => ?_
    refine hR p w h rfl ?_
    rintro r rfl hmode hs
    exact h.entitledRotation hP hstored
      (of_pendingRotationMatches (not_not.mp hm) hid rfl hmode) (hs hstored hrel hcred)
  | none =>
    refine wp_check h fun _ => ?_
    rw [Cmd.wp_bind, wp_newIdempotencyKey]
    refine ⟨h, fun k hk => ?_⟩
    obtain ⟨hunsent, hreg, -⟩ := hE w k hk
    refine wp_check h fun _ => ?_
    rw [Cmd.wp_bind, wp_now]
    refine ⟨h, fun t _ => ?_⟩
    let record := rotationRecord P current next revision (encodeB64url k.bytes) t
    have hnext : Distinct P (w.stored { w.store with pendingRotation := some record }) :=
      h.pendingRotation (fun r hr => absurd hr (hunsent r)) hreg
    rw [Cmd.wp_bind]
    refine wp_atomicOwnerWrite h (fun _ _ => h) (fun _ _ => hnext) ?_
    refine hR _ _ hnext rfl ?_
    rintro r rfl hmode -
    refine ⟨fun r' hr' => absurd hr' (hunsent r'), fun p' hp' hk' => absurd hk' (hreg p' hp'), ?_⟩
    rintro _ ⟨⟩ -
    exact ⟨hid, rfl, rfl, rfl, hmode⟩

/-- What a rotation with the stored policy may find on the machine. -/
def FoundRotating (E : Surroundings) (build : Build) (args : List String)
    (policy : Option LocalPolicy) (releaseProfile : String) (e : Evidence) : Prop :=
  ∃ runtime verified signer w₁ w₂, w₁.store.policy = policy ∧ w₂.store.policy = policy ∧
    Cmd.Returns E (orCompatibilityMismatch
      (signerCertificateSha256ForProfile build args (some releaseProfile))).1 w₁ signer w₁ ∧
    Cmd.Returns E (Rotate.evidence build).1 w₂ (runtime, verified) w₂ ∧
    e = evidence build runtime signer verified

theorem wp_submit (hP : NoCollision P) (hE : FreshKeys E) {build : Build}
    {token signer : String} {previous : CommunityCredential} {current next : DeviceIdentity}
    {w : World} (h : Distinct P w)
    (hs : ∀ p, w.store.pendingRotation = some p → ∀ runtime policy w',
      w'.store.policy = w.store.policy →
      Cmd.Returns E (Rotate.evidence build).1 w' (runtime, policy) w' →
      SentAs w p.idempotencyKey current.releaseProfile current.credentialProfile
        (evidence build runtime signer policy)) :
    Cmd.wp E (Distinct P) (fun _ => Distinct P)
      (Rotate.submit P build token signer previous current next) (fun _ => Distinct P) w := by
  unfold Rotate.submit
  rw [Cmd.wp_bind]
  refine wp_loadOrCreatePendingRotation hP hE h fun p w₁ h₁ hpolicy hentitled => ?_
  refine wp_probe h₁ fun found hfound => ?_
  refine wp_probe h₁ fun api _ => ?_
  rw [Cmd.wp_bind]
  have he : Entitled P w₁ p.idempotencyKey
      ⟨build, next, found.1, found.2, signer, "rotate"⟩ := by
    refine hentitled _ rfl rfl fun hp hrel hcred => ?_
    rw [← hrel, ← hcred]
    exact hs p hp found.1 found.2 w₁ hpolicy hfound
  refine wp_sending keeps_rotateDevice h₁ he fun body w₂ h₂ => ?_
  refine wp_probe h₂ fun nowUnix _ => ?_
  have hlast : ∀ c : CommunityCredential, Changes P [.issued, .write .key,
      .write .identityMetadata, .write .credential, .remove .activeBinding,
      .remove .pendingKeyRotation, .remove .pendingRotation] (do
        record (.issued c)
        commitIdentityRotation P next c) := by
    intro c
    refine .bind (.record (k := .issued) (by decide) fun _ => ⟨c, rfl⟩) fun _ => ?_
    exact changes_commitIdentityRotation (by decide) (by decide) (by decide) (by decide)
      (by decide) (by decide)
  split
  · exact h₂
  · rename_i c _
    refine wp_check h₂ fun _ => ?_
    exact wp_quiet ((hlast c).quiet (by decide)) h₂ fun _ _ h _ => h

/-- A rotation that takes up a stored key finds the profiles and the evidence that were sent under
it. -/
def RotatesAlike (P : Platform) (E : Surroundings) (build : Build) (args : List String)
    (w : World) : Prop :=
  ∀ p c, hasOption args "--confirm" → w.store.pendingKeyRotation.isSome →
    w.store.pendingRotation = some p → w.store.loadForRotation P = .ok c →
    ∀ e, FoundRotating E build args w.store.policy c.releaseProfile e →
      SentAs w p.idempotencyKey c.releaseProfile c.credentialProfile e

theorem wp_start (hP : NoCollision P) (hE : FreshKeys E) {build : Build} {args : List String}
    {token : String} {previous : CommunityCredential} {current : DeviceIdentity} {w : World}
    (h : Distinct P w) (hrel : current.releaseProfile = previous.releaseProfile)
    (hcred : current.credentialProfile = previous.credentialProfile)
    (hs : ∀ p, w.store.pendingKeyRotation.isSome → w.store.pendingRotation = some p →
      ∀ e, FoundRotating E build args w.store.policy previous.releaseProfile e →
        SentAs w p.idempotencyKey previous.releaseProfile previous.credentialProfile e) :
    Cmd.wp E (Distinct P) (fun _ => Distinct P)
      (Rotate.start P build args token previous current) (fun _ => Distinct P) w := by
  unfold Rotate.start
  refine wp_probe h fun signer hsigner => ?_
  rw [Cmd.wp_bind, wp_theStore, Cmd.wp_bind]
  refine wp_lift (fun _ _ => h) fun existing hx => ?_
  have hstored := stored_of_readPendingRotation hx
  rw [Cmd.wp_bind]
  refine Probe.wp _ h (fun _ _ => h) fun prepared hprepared => ?_
  have hkey : prepared.isSome → w.store.pendingKeyRotation.isSome := by
    refine Cmd.wp_returns (I := fun _ => True) (F := fun _ _ => True)
      (R := fun x _ => x.isSome → w.store.pendingKeyRotation.isSome) hprepared ?_
    change Cmd.wp E _ _ (liftM (loadPendingIdentityRotation current) : Command _) _ w
    rw [loadPendingIdentityRotation, probe_bind, Cmd.wp_bind, wp_theStore]
    cases hk : w.store.pendingKeyRotation with
    | none => exact fun hn => by cases hn
    | some bytes => exact Probe.wp_bind trivial (fun _ _ => trivial) fun _ _ _ => rfl
  refine wp_check h fun hboth => ?_
  refine wp_probe h fun s _ => ?_
  refine wp_probe h fun active _ => ?_
  refine wp_check h fun _ => ?_
  cases prepared with
  | some next =>
    refine wp_submit hP hE h fun p hp runtime policy w' hpolicy hr => ?_
    rw [hrel, hcred]
    rw [hrel] at hsigner
    exact hs p (hkey rfl) hp _ ⟨runtime, policy, signer, w, w', rfl, hpolicy, hsigner, hr, rfl⟩
  | none =>
    rw [Cmd.wp_bind]
    refine wp_quiet ((changes_prepareIdentityRotation (P := P) (List.mem_singleton.mpr rfl)).quiet
      (by decide)) h fun next w' h' hq => ?_
    refine wp_submit hP hE h' fun p hp => ?_
    have hnone : existing = none := by
      cases existing with
      | none => rfl
      | some p => exact absurd ⟨rfl, rfl⟩ hboth
    have hp' := hq.rotation p hp
    rw [hstored, hnone] at hp'
    cases hp'

theorem wp_rotateOnce (hP : NoCollision P) (hE : FreshKeys E) {build : Build}
    {args : List String} {w : World} (h : Distinct P w) (hs : RotatesAlike P E build args w) :
    Cmd.wp E (Distinct P) (fun _ => Distinct P) (deviceRotate P build args)
      (fun _ => Distinct P) w := by
  unfold deviceRotate
  refine wp_check h fun hconfirm => ?_
  refine wp_probe h fun _ _ => ?_
  refine wp_probe h fun token _ => ?_
  rw [Cmd.wp_bind, wp_theStore, Cmd.wp_bind]
  refine wp_lift (fun _ _ => h) fun previous hprevious => ?_
  rw [Cmd.wp_bind]
  refine wp_loadIdentity h (fun _ _ => h) fun current hid hrel hcred _ _ => ?_
  rw [Cmd.wp_bind]
  refine wp_finishInterrupted h ?_ fun w' h' => h'
  refine wp_start hP hE h hrel hcred fun p hk hp => ?_
  exact hs p previous (not_not.mp hconfirm) hk hp hprevious

/-! ## Policy changes -/

/-- A registration of a policy change draws a key of its own. -/
theorem keeps_synchronizeRegisteredPolicy (hE : FreshKeys E) {build : Build}
    {args : List String} {runtime : String} {policy : VerifiedLocalPolicy} :
    Cmd.Keeps E (Distinct P) (synchronizeRegisteredPolicy P build args runtime policy) := by
  intro w h
  rw [synchronizeRegisteredPolicy, Cmd.wp_bind, wp_theStore]
  cases w.store.loadForRotation P with
  | error e =>
    cases e with
    | missing =>
      rw [Cmd.wp_ite]
      exact ⟨fun _ => h, fun _ => h⟩
    | _ => exact h
  | ok previous =>
    refine wp_probe h fun token _ => ?_
    cases token with
    | none => exact h
    | some token =>
      refine wp_probe h fun identity _ => ?_
      refine wp_probe h fun certificate _ => ?_
      rw [Cmd.wp_bind, wp_newIdempotencyKey]
      refine ⟨h, fun k hk => ?_⟩
      obtain ⟨hunsent, hreg, hrot⟩ := hE w k hk
      refine wp_probe h fun api _ => ?_
      rw [Cmd.wp_bind]
      have he : Entitled P w (encodeB64url k.bytes)
          ⟨build, identity, runtime, policy, certificate, "ensure"⟩ :=
        ⟨fun r hr => absurd hr (hunsent r), fun p hp hk' => absurd hk' (hreg p hp),
          fun p hp hk' => absurd hk' (hrot p hp)⟩
      refine wp_sending keeps_ensureWithRetry h he fun response w' h' => ?_
      refine wp_probe h' fun nowUnix _ => ?_
      split
      · exact h'
      · rename_i c _
        have hq : Quiet w' (w'.logged (.issued c)) :=
          .change (.issued c) trivial rfl (fun _ h => h) fun _ h => h
        exact ⟨h', hq.distinct h'⟩

theorem keeps_quiet {α : Type} {p : Command α} (hp : p.Within Quiet) :
    Cmd.Keeps E (Distinct P) p :=
  hp.keeps fun _ _ hq h => hq.distinct h

theorem keeps_synchronizeAndCommit (hE : FreshKeys E) {build : Build} {args : List String}
    {runtime : String} {update : PreparedPolicyUpdate} {verified : VerifiedLocalPolicy} :
    Cmd.Keeps E (Distinct P) (synchronizeAndCommit P build args runtime update verified) := by
  unfold synchronizeAndCommit
  have hpolicy : Changes P [.write .policy] (commitPolicyUpdate update) :=
    changes_commitPolicyUpdate (by decide)
  refine .bind (keeps_synchronizeRegisteredPolicy hE) fun credential => ?_
  cases credential with
  | none => exact keeps_quiet (hpolicy.quiet (by decide))
  | some c =>
    have hclear : Changes P [.remove .activeBinding] clearActiveBinding :=
      changes_clearActiveBinding (by decide)
    have hsave : Changes P [.write .credential] (save P c) := changes_save (by decide)
    refine .bind (keeps_quiet (hclear.quiet (by decide))) fun _ => ?_
    refine .bind (keeps_quiet (hpolicy.quiet (by decide))) fun _ => ?_
    exact keeps_quiet (hsave.quiet (by decide))

theorem quiet_bindingRequest {client : DeviceApiClient} {bindingId : String}
    {generation : UInt64} {operation path : String} {members : List (String × Json)} :
    (client.bindingRequest P bindingId generation operation path members).Within Quiet :=
  .bind (within_probe _) fun _ => .bind quiet_addProofForGeneration fun _ =>
    quiet_postWithIdempotency _ _ _

theorem keeps_confirmBindingAllowlist {bindingId : String} {generation : Option String}
    {update : PreparedPolicyUpdate} {verified : VerifiedLocalPolicy} :
    Cmd.Keeps E (Distinct P) (confirmBindingAllowlist P bindingId generation update verified) := by
  have hpolicy : Changes P [.write .policy] (commitPolicyUpdate update) :=
    changes_commitPolicyUpdate (by decide)
  have hclear : Changes P [.remove .activeBinding] clearActiveBinding :=
    changes_clearActiveBinding (by decide)
  unfold confirmBindingAllowlist
  cases generation with
  | none => exact keeps_probe _
  | some text =>
    refine .bind (keeps_probe _) fun generation => ?_
    refine .bind (keeps_probe _) fun nowUnix => ?_
    refine .bind (keeps_probe _) fun s => ?_
    refine .bind (keeps_probe _) fun credential => ?_
    refine .bind (keeps_probe _) fun identity => ?_
    refine .bind (keeps_probe _) fun s' => ?_
    refine .bind (keeps_probe _) fun active => ?_
    refine keeps_check fun _ => ?_
    refine .bind (keeps_probe _) fun client => ?_
    refine keeps_check fun _ => ?_
    cases verified.allowlistRootsDigest with
    | none => exact keeps_probe _
    | some digest =>
      refine .bind (keeps_quiet quiet_bindingRequest) fun result => ?_
      refine .bind (keeps_probe _) fun next => ?_
      have hrecord : Changes P [.confirmed] (record (.confirmed
          ⟨.confirmAllowlist, bindingId, responseStatus result, some verified⟩)) :=
        .record (k := .confirmed) (by decide) fun _ => ⟨_, rfl⟩
      refine .bind (keeps_quiet (hrecord.quiet (by decide))) fun _ => ?_
      refine .bind (keeps_quiet (hclear.quiet (by decide))) fun _ => ?_
      refine .bind (keeps_quiet (hpolicy.quiet (by decide))) fun _ => ?_
      cases active with
      | none => exact .pure _
      | some active =>
        have hpersist : Changes P [.confirmed, .write .activeBinding, .remove .activeBinding,
            .write .localAdmission] (persistActiveBinding P .confirmAllowlist credential.deviceId
              active.taskSpaceLabel result) :=
          changes_persistActiveBinding (by decide) (by decide) (by decide) (by decide)
        exact keeps_quiet (hpersist.quiet (by decide))

theorem keeps_allowlistSet (hE : FreshKeys E) {build : Build} {args : List String} :
    Cmd.Keeps E (Distinct P) (allowlistSet P build args) := by
  unfold allowlistSet
  refine keeps_check fun _ => ?_
  refine .bind (keeps_probe _) fun binding => ?_
  refine .bind (keeps_probe _) fun generation => ?_
  refine keeps_check fun _ => ?_
  refine keeps_check fun _ => ?_
  refine .bind (keeps_probe _) fun _ => ?_
  refine .bind (keeps_probe _) fun runtime => ?_
  refine .bind (keeps_probe _) fun _ => ?_
  refine .bind (keeps_probe _) fun roots => ?_
  refine keeps_check fun _ => ?_
  refine .bind (keeps_probe _) fun update => ?_
  refine .bind (keeps_probe _) fun verified => ?_
  cases binding with
  | none => exact keeps_synchronizeAndCommit hE
  | some bindingId => exact keeps_confirmBindingAllowlist

theorem keeps_learningSet (hE : FreshKeys E) {build : Build} {args : List String} :
    Cmd.Keeps E (Distinct P) (learningSet P build args) := by
  unfold learningSet
  refine keeps_check fun _ => ?_
  refine .bind (keeps_probe _) fun paths => ?_
  split
  · refine .bind (keeps_probe _) fun _ => ?_
    refine .bind (keeps_probe _) fun update => ?_
    refine .bind (keeps_probe _) fun runtime => ?_
    refine .bind (keeps_probe _) fun verified => ?_
    refine .bind (keeps_synchronizeAndCommit hE) fun _ => ?_
    exact .bind (keeps_probe _) fun policy => .ite (keeps_probe _) (.pure _)
  · exact keeps_probe _

end

/-! ## Runs -/

/-- The commands that register a device, rotate it or change its policy. -/
def DeviceCommand.registers : DeviceCommand → Bool
  | .ensure _ => true
  | .deviceRotate _ => true
  | .allowlistSet _ => true
  | .learningSet _ => true
  | _ => false

variable (P : Platform) (E : Surroundings)

/-- No two pending records of the store hold one key. -/
def KeysApart (s : Store) : Prop :=
  ∀ p p', s.pendingRegistration = some p → s.pendingRotation = some p' →
    p.idempotencyKey ≠ p'.idempotencyKey

/-- The commands on one store, each stopped anywhere, one after the other. -/
def registrationRuns : Run.System Invocation World :=
  (commands E (fun w => w.log = [] ∧ KeysApart w.store) (·.run P)).restrict
    fun _ i => i.command.registers

/-- An attempt that takes up a stored key finds what was sent under it. -/
structure AttemptsAlike (w : World) (i : Invocation) : Prop where
  ensure : ∀ args, i.command = .ensure args → EnrollsAlike P E i.build args w
  rotate : ∀ args, i.command = .deviceRotate args → RotatesAlike P E i.build args w

theorem Distinct.run {P : Platform} {E : Surroundings} (hP : NoCollision P) (hE : FreshKeys E)
    {w : World} {i : Invocation} (h : Distinct P w) (hi : i.command.registers)
    (ha : AttemptsAlike P E w i) :
    Cmd.wp E (Distinct P) (fun _ => Distinct P) (i.run P) (fun _ => Distinct P) w := by
  cases hcommand : i.command with
  | ensure args =>
    rw [Invocation.run, hcommand]
    exact wp_ensureOnce hP hE h (ha.ensure args hcommand)
  | deviceRotate args =>
    rw [Invocation.run, hcommand]
    exact wp_rotateOnce hP hE h (ha.rotate args hcommand)
  | allowlistSet args =>
    rw [Invocation.run, hcommand]
    exact keeps_allowlistSet hE w h
  | learningSet args =>
    rw [Invocation.run, hcommand]
    exact keeps_learningSet hE w h
  | _ =>
    rw [hcommand] at hi
    cases hi

/-- No key is sent with two payloads, in any run whose attempts find what was sent under the keys
they take up. -/
theorem keys_kept (hP : NoCollision P) (hE : FreshKeys E) {w : World}
    (h : ((registrationRuns P E).restrict (AttemptsAlike P E)).Reachable w) : OnePayload w := by
  have hd : Distinct P w := by
    refine Run.System.invariant ?_ ?_ h
    · rintro w ⟨hl, hk⟩
      have hnone : ∀ key r, ¬ Sent w key r := by
        rintro key r ⟨e, he, -⟩
        rw [hl] at he
        cases he
      refine ⟨?_, fun key r _ hr => absurd hr (hnone key r), fun _ _ r hr => absurd hr (hnone _ r),
        fun _ _ r hr => absurd hr (hnone _ r), hk⟩
      intro e he
      rw [hl] at he
      cases he
    · rintro w i w' hw ⟨⟨hstep, hi⟩, ha⟩
      exact Cmd.wp_passes hstep (hw.run hP hE hi ha) (fun _ _ h => h) (fun _ _ h => h)
  exact hd.onePayload

/-! ## An upgrade between two attempts -/

def asciiChar (b : UInt8) : Char := Char.ofNat b.toNat

/-- A digest that keeps what a key's text says. -/
def keyDigest (bytes : Bytes) : Key :=
  match Base64.decode (bytes.map asciiChar) with
  | some decoded => if h : decoded.length = 32 then ⟨decoded, h⟩ else sampleKey
  | none => sampleKey

def digestPlatform : Platform := { samplePlatform with sha256 := keyDigest }

theorem asciiChar_sym :
    ∀ n < 64, (String.utf8EncodeChar (Base64.sym n)).map asciiChar = [Base64.sym n] := by
  decide

theorem map_asciiChar {cs : List Char} (h : ∀ c ∈ cs, ∃ n, n < 64 ∧ c = Base64.sym n) :
    (utf8 (String.ofList cs)).map asciiChar = cs := by
  induction cs with
  | nil => rfl
  | cons c cs ih =>
    obtain ⟨n, hn, rfl⟩ := h c List.mem_cons_self
    rw [utf8_ofList_cons, List.map_append, asciiChar_sym n hn,
      ih fun c hc => h c (List.mem_cons_of_mem _ hc)]
    rfl

theorem keyDigest_encode (k : Key) : keyDigest (utf8 (encodeB64url k.bytes)) = k := by
  rw [keyDigest, encodeB64url, map_asciiChar fun c hc => Base64.mem_encode hc,
    Base64.decode_encode]
  exact dif_pos k.length_eq

theorem hexDigit_injective : ∀ m < 16, ∀ n < 16, hexDigit m = hexDigit n → m = n := by decide

theorem hexByte_injective {a b : UInt8} (h : hexByte a = hexByte b) : a = b := by
  have ha := a.toNat_lt
  have hb := b.toNat_lt
  simp only [hexByte, List.cons.injEq, and_true] at h
  have hhigh := hexDigit_injective _ (by omega) _ (by omega) h.1
  have hlow := hexDigit_injective _ (by omega) _ (by omega) h.2
  exact UInt8.toNat_inj.mp (by omega)

theorem flatMap_hexByte_injective {as bs : Bytes} (h : as.flatMap hexByte = bs.flatMap hexByte) :
    as = bs := by
  induction as generalizing bs with
  | nil =>
    cases bs with
    | nil => rfl
    | cons b bs => cases h
  | cons a as ih =>
    cases bs with
    | nil => cases h
    | cons b bs =>
      rw [List.flatMap_cons, List.flatMap_cons] at h
      obtain ⟨hhead, htail⟩ := List.append_inj h rfl
      rw [hexByte_injective hhead, ih htail]

theorem publicValueSha256_key {k k' : Key}
    (h : publicValueSha256 digestPlatform (encodeB64url k.bytes) =
      publicValueSha256 digestPlatform (encodeB64url k'.bytes)) :
    encodeB64url k.bytes = encodeB64url k'.bytes := by
  have hlist := congrArg String.toList h
  rw [publicValueSha256, publicValueSha256, String.toList_ofList, String.toList_ofList] at hlist
  have hbytes := flatMap_hexByte_injective hlist
  change (keyDigest _).bytes = (keyDigest _).bytes at hbytes
  rw [keyDigest_encode, keyDigest_encode] at hbytes
  rw [hbytes]

theorem digestPlatform_noCollision : NoCollision digestPlatform where
  signing := fun _ _ h => publicValueSha256_key h
  encryption := fun _ _ h => publicValueSha256_key h

/-- No operation key is drawn twice. -/
theorem releaseAnswers_fresh (reply : Request → Json) :
    FreshKeys (Cmd.Given (releaseAnswers reply)) := by
  intro w k hk
  change (if keyUnused w (encodeB64url sampleKey.bytes) then some sampleKey else none) =
    some k at hk
  cases hu : keyUnused w (encodeB64url sampleKey.bytes) with
  | false =>
    rw [hu] at hk
    cases hk
  | true =>
    rw [hu] at hk
    cases hk
    simp only [keyUnused, Bool.and_eq_true, List.all_eq_true, Option.all_eq_true,
      decide_eq_true_eq] at hu
    obtain ⟨⟨hlog, hreg⟩, hrot⟩ := hu
    refine ⟨?_, hreg, hrot⟩
    rintro r ⟨e, he, q, hq, hkey⟩
    have hne := hlog e he
    rw [hq] at hne
    simp only [decide_eq_true_eq] at hne
    exact hne hkey

def upgradedBuild : Build := { sampleBuild with packageVersion := "2.0.1" }

def firstArgs : List String := ["--server", sampleOrigin, "--token", "token"]

def upgradeAnswers : World → (q : Query) → Option q.Answer := releaseAnswers fun _ => .null

/-- The store of a first enrollment that waits for the server. -/
def waitingStore : Store := { Store.empty with
  key := some (encodeIdentity sampleIdentity)
  identityMetadata := some
    ⟨1, "device-1", sampleOrigin, COMMUNITY_PROFILE_ID, SUPPORTED_CREDENTIAL_PROFILE⟩
  pendingRegistration := some (Ensure.registrationRecord digestPlatform sampleOrigin "initial"
    sampleIdentity (encodeB64url sampleKey.bytes) 1) }

def generatedWorld : World :=
  ((⟨Store.empty, []⟩ : World).logged (.installed sampleIdentity)).stored
    { Store.empty with key := some (encodeIdentity sampleIdentity) }

def namedWorld : World := generatedWorld.stored { generatedWorld.store with
  identityMetadata := some
    ⟨1, "device-1", sampleOrigin, COMMUNITY_PROFILE_ID, SUPPORTED_CREDENTIAL_PROFILE⟩ }

def waitingWorld : World := generatedWorld.stored waitingStore

def plainInputs : LocalRegistrationInputs :=
  ⟨"2.0.0", ⟨1, 1, none, none, none⟩, TRUSTED_COMMUNITY_SIGNER_CERTIFICATE_SHA256, none⟩

def plainRegistration (build : Build) : Registration :=
  ⟨build, sampleIdentity, plainInputs.runtime, plainInputs.policy,
    plainInputs.signerCertificateSha256, "initial"⟩

def challengeRequest : Request :=
  ⟨sampleOrigin, "/api/v1/ego-browser/proof-challenges", "token", none,
    DeviceApiClient.challengePayload ⟨sampleOrigin, "token", sampleIdentity⟩ 1 "register_device"
      none⟩

def enrollRequest (build : Build) : Request :=
  ⟨sampleOrigin, "/api/v1/ego-browser/devices/ensure", "token",
    some (encodeB64url sampleKey.bytes),
    registrationPayload digestPlatform (plainRegistration build)⟩

/-- The world after an attempt has been answered. -/
def attempted (build : Build) (w : World) : World :=
  (w.logged (.sent challengeRequest none)).logged
    (.sent (enrollRequest build) (some (plainRegistration build)))

theorem eval_exchange {build : Build} (hb : build = sampleBuild ∨ build = upgradedBuild)
    (w : World) : (Ensure.exchange digestPlatform sampleOrigin (some "token")
      (plainRegistration build) (encodeB64url sampleKey.bytes)).eval upgradeAnswers w =
        some (.null, attempted build w) := by
  rcases hb with rfl | rfl
  · rfl
  · rfl

/-- The first attempt draws its key and is answered. -/
theorem first_registers : Cmd.Meets (Cmd.Given upgradeAnswers)
    (Ensure.register digestPlatform sampleBuild firstArgs sampleOrigin "initial" (some "token")
      sampleIdentity none none none) namedWorld (· = attempted sampleBuild waitingWorld) := by
  rw [Ensure.register]
  refine Cmd.Meets.after (encodeB64url sampleKey.bytes) waitingWorld rfl ?_
  refine Cmd.Meets.after plainInputs waitingWorld rfl ?_
  exact Cmd.Meets.after .null _ (eval_exchange (.inl rfl) waitingWorld) (.here rfl)

theorem first_ensure : Cmd.Meets (Cmd.Given upgradeAnswers)
    (ensure digestPlatform sampleBuild firstArgs) ⟨Store.empty, []⟩
      (· = attempted sampleBuild waitingWorld) := by
  rw [ensure]
  refine Cmd.Meets.after () ⟨Store.empty, []⟩ rfl ?_
  refine Cmd.Meets.after none ⟨Store.empty, []⟩ rfl ?_
  refine Cmd.Meets.after Store.empty ⟨Store.empty, []⟩ rfl ?_
  refine Cmd.Meets.after none ⟨Store.empty, []⟩ rfl ?_
  refine Cmd.Meets.after none ⟨Store.empty, []⟩ rfl ?_
  refine Cmd.Meets.after sampleOrigin ⟨Store.empty, []⟩ rfl ?_
  refine Cmd.Meets.after (some "token") ⟨Store.empty, []⟩ rfl ?_
  refine Cmd.Meets.after COMMUNITY_PROFILE_ID ⟨Store.empty, []⟩ rfl ?_
  refine Cmd.Meets.after SUPPORTED_CREDENTIAL_PROFILE ⟨Store.empty, []⟩ rfl ?_
  rw [if_neg (by decide)]
  dsimp only
  rw [if_pos (by decide)]
  refine Cmd.Meets.after () ⟨Store.empty, []⟩ rfl ?_
  refine Cmd.Meets.after sampleIdentity generatedWorld rfl ?_
  rw [if_neg (by decide), if_neg (by decide)]
  refine Cmd.Meets.after none generatedWorld rfl ?_
  have hmode : Ensure.enrollmentMode firstArgs none none none = "initial" := rfl
  rw [hmode, if_neg (by decide)]
  refine Cmd.Meets.after () namedWorld rfl ?_
  rw [Ensure.finish]
  exact Cmd.Meets.after false namedWorld rfl first_registers

def waitingRecord : PendingRegistration :=
  Ensure.registrationRecord digestPlatform sampleOrigin "initial" sampleIdentity
    (encodeB64url sampleKey.bytes) 1

/-- The world the second attempt finds. -/
def waited : World := ⟨waitingStore, (attempted sampleBuild waitingWorld).log⟩

theorem eval_probe {α : Type} {p : Probe α} {a : α}
    (h : ((liftM p : Command α).eval upgradeAnswers waited).map
      (fun x => (x.1, x.2.store, x.2.log.length)) = some (a, waitingStore, waited.log.length)) :
    (liftM p : Command α).eval upgradeAnswers waited = some (a, waited) := by
  have hp : Changes digestPlatform [] (liftM p : Command α) := .probe p
  exact eval_unlogged hp h

theorem eval_operationKey : (Ensure.operationKey digestPlatform sampleOrigin "initial"
    sampleIdentity (some waitingRecord)).eval upgradeAnswers waited =
      some (encodeB64url sampleKey.bytes, waited) := by
  have hkey : ((Ensure.operationKey digestPlatform sampleOrigin "initial" sampleIdentity
      (some waitingRecord)).eval upgradeAnswers waited).map
        (fun x => (x.1, x.2.store, x.2.log.length)) =
      some (encodeB64url sampleKey.bytes, waitingStore, waited.log.length) := rfl
  exact eval_unlogged (changes_operationKey (List.mem_singleton.mpr rfl)) hkey

/-- The second attempt takes up the stored key. -/
theorem second_registers {build : Build} (hb : build = sampleBuild ∨ build = upgradedBuild) :
    Cmd.Meets (Cmd.Given upgradeAnswers)
      (Ensure.register digestPlatform build firstArgs sampleOrigin "initial" (some "token")
        sampleIdentity (some waitingRecord) none none) waited (· = attempted build waited) := by
  have hinputs : (liftM (localRegistrationInputs build firstArgs sampleIdentity) :
      Command _).eval upgradeAnswers waited = some (plainInputs, waited) := by
    rcases hb with rfl | rfl
    · exact eval_probe rfl
    · exact eval_probe rfl
  rw [Ensure.register]
  refine Cmd.Meets.after (encodeB64url sampleKey.bytes) waited eval_operationKey ?_
  refine Cmd.Meets.after plainInputs waited hinputs ?_
  exact Cmd.Meets.after .null _ (eval_exchange hb waited) (.here rfl)

set_option maxRecDepth 4000 in
theorem second_ensure {build : Build} (hb : build = sampleBuild ∨ build = upgradedBuild) :
    Cmd.Meets (Cmd.Given upgradeAnswers) (ensure digestPlatform build firstArgs) waited
      (· = attempted build waited) := by
  have hfind : Changes digestPlatform [.write .pendingRegistration]
      (Ensure.findPending digestPlatform firstArgs) := changes_findPending (by decide)
  have hidentity : Changes digestPlatform [.write .key] (Ensure.findIdentity digestPlatform
      sampleOrigin COMMUNITY_PROFILE_ID SUPPORTED_CREDENTIAL_PROFILE (some waitingRecord) none
      waitingStore.identityMetadata) := changes_findIdentity (by decide)
  have henroll : Changes digestPlatform [.write .pendingRegistration] (Ensure.reEnroll
      digestPlatform firstArgs (some "token") sampleOrigin COMMUNITY_PROFILE_ID
      SUPPORTED_CREDENTIAL_PROFILE sampleIdentity (some waitingRecord) none
      waitingStore.identityMetadata) := changes_reEnroll (by decide)
  have hname : Changes digestPlatform [.write .identityMetadata] (saveIdentityMetadata
      digestPlatform sampleIdentity sampleOrigin) := changes_saveIdentityMetadata (by decide)
  rw [ensure]
  refine Cmd.Meets.after () waited (eval_probe rfl) ?_
  refine Cmd.Meets.after (some waitingRecord) waited (eval_unlogged hfind rfl) ?_
  refine Cmd.Meets.after waitingStore waited (eval_probe rfl) ?_
  refine Cmd.Meets.after none waited (eval_probe rfl) ?_
  refine Cmd.Meets.after waitingStore.identityMetadata waited (eval_probe rfl) ?_
  refine Cmd.Meets.after sampleOrigin waited (eval_probe rfl) ?_
  refine Cmd.Meets.after (some "token") waited (eval_probe rfl) ?_
  refine Cmd.Meets.after COMMUNITY_PROFILE_ID waited (eval_probe rfl) ?_
  refine Cmd.Meets.after SUPPORTED_CREDENTIAL_PROFILE waited (eval_probe rfl) ?_
  rw [if_neg (by decide)]
  dsimp only
  rw [if_neg (by decide)]
  refine Cmd.Meets.after sampleIdentity waited (eval_unlogged hidentity rfl) ?_
  rw [if_neg (by decide), if_neg (by decide)]
  refine Cmd.Meets.after (some waitingRecord) waited
    (eval_unlogged henroll rfl) ?_
  have hmode : Ensure.enrollmentMode firstArgs (some waitingRecord) none
    waitingStore.identityMetadata = "initial" := rfl
  rw [hmode, if_neg (by decide)]
  refine Cmd.Meets.after () waited (eval_unlogged hname rfl) ?_
  rw [Ensure.finish]
  exact Cmd.Meets.after false waited rfl (second_registers hb)

theorem payloads_differ : registrationPayload digestPlatform (plainRegistration sampleBuild) ≠
    registrationPayload digestPlatform (plainRegistration upgradedBuild) := by
  intro h
  have hversion := congrArg (get · "bridge_version") h
  change some (Json.str "2.0.0") = some (Json.str "2.0.1") at hversion
  revert hversion
  decide

theorem start_empty : (registrationRuns digestPlatform (Cmd.Given upgradeAnswers)).init
    ⟨Store.empty, []⟩ :=
  ⟨rfl, fun p p' hp => by cases hp⟩

/-- An upgrade between two attempts changes what is sent under the stored key. -/
theorem key_reused : ¬ ∀ P E w, NoCollision P → FreshKeys E → (registrationRuns P E).Reachable w →
    OnePayload w := by
  intro h
  obtain ⟨_, hfirst, rfl⟩ := first_ensure
  obtain ⟨_, hsecond, rfl⟩ := second_ensure (.inr rfl)
  have hone : (registrationRuns digestPlatform (Cmd.Given upgradeAnswers)).Reachable waited :=
    (Run.System.Reachable.start start_empty).next ⟨sampleBuild, .ensure firstArgs⟩ ⟨hfirst, rfl⟩
  have htwo : (registrationRuns digestPlatform (Cmd.Given upgradeAnswers)).Reachable
      (attempted upgradedBuild waited) :=
    hone.next ⟨upgradedBuild, .ensure firstArgs⟩ ⟨hsecond, rfl⟩
  have hsame := h _ _ _ digestPlatform_noCollision (releaseAnswers_fresh _) htwo
  have hold : (⟨.sent (enrollRequest sampleBuild) (some (plainRegistration sampleBuild)),
      waitingStore⟩ : Entry) ∈ (attempted upgradedBuild waited).log :=
    List.mem_cons_of_mem _ (List.mem_cons_of_mem _ List.mem_cons_self)
  have hnew : (⟨.sent (enrollRequest upgradedBuild) (some (plainRegistration upgradedBuild)),
      waitingStore⟩ : Entry) ∈ (attempted upgradedBuild waited).log := List.mem_cons_self
  exact payloads_differ (hsame _ hold _ hnew _ _ _ _ rfl rfl rfl)

/-- Whoever asks, the release finds the same. -/
theorem found_plain {inputs : LocalRegistrationInputs}
    (h : Found (Cmd.Given upgradeAnswers) sampleBuild firstArgs none COMMUNITY_PROFILE_ID inputs) :
    inputs = plainInputs := by
  obtain ⟨identity, w, hprofile, hpolicy, hr⟩ := h
  have heval : (localRegistrationInputs sampleBuild firstArgs identity).1.eval upgradeAnswers w =
      some (plainInputs, w) := by
    obtain ⟨s, log⟩ := w
    cases s
    cases identity
    cases hpolicy
    cases hprofile
    rfl
  have hsome := Cmd.eval_of_returns hr
  rw [heval] at hsome
  cases hsome
  rfl

theorem retry_alike : EnrollsAlike digestPlatform (Cmd.Given upgradeAnswers) sampleBuild firstArgs
    waited := by
  intro p hp
  cases hp
  refine .inr (.inr fun inputs hfound => ?_)
  rw [found_plain hfound]
  rintro r ⟨e, he, q, hq, -⟩
  have hlog : waited.log = [⟨.sent (enrollRequest sampleBuild) (some (plainRegistration sampleBuild)),
    waitingStore⟩, ⟨.sent challengeRequest none, waitingStore⟩,
    ⟨.installed sampleIdentity, Store.empty⟩] := rfl
  rw [hlog] at he
  simp only [List.mem_cons, List.not_mem_nil, or_false] at he
  rcases he with rfl | rfl | rfl
  · cases hq
    rfl
  · cases hq
  · cases hq

/-- A second attempt with the same build sends the stored key with what it was sent with. -/
theorem keys_kept_retried :
    (((registrationRuns digestPlatform (Cmd.Given upgradeAnswers)).restrict
      (AttemptsAlike digestPlatform (Cmd.Given upgradeAnswers))).Reachable
        (attempted sampleBuild waited)) ∧
    OnePayload (attempted sampleBuild waited) := by
  obtain ⟨_, hfirst, rfl⟩ := first_ensure
  obtain ⟨_, hsecond, rfl⟩ := second_ensure (.inl rfl)
  have hstart : ((registrationRuns digestPlatform (Cmd.Given upgradeAnswers)).restrict
      (AttemptsAlike digestPlatform (Cmd.Given upgradeAnswers))).Reachable ⟨Store.empty, []⟩ :=
    .start start_empty
  have hone : ((registrationRuns digestPlatform (Cmd.Given upgradeAnswers)).restrict
      (AttemptsAlike digestPlatform (Cmd.Given upgradeAnswers))).Reachable waited := by
    refine hstart.next ⟨sampleBuild, .ensure firstArgs⟩ ⟨⟨hfirst, rfl⟩, ?_, ?_⟩
    · intro args _ p hp
      cases hp
    · intro args hc
      cases hc
  have htwo : ((registrationRuns digestPlatform (Cmd.Given upgradeAnswers)).restrict
      (AttemptsAlike digestPlatform (Cmd.Given upgradeAnswers))).Reachable
        (attempted sampleBuild waited) := by
    refine hone.next ⟨sampleBuild, .ensure firstArgs⟩ ⟨⟨hsecond, rfl⟩, ?_, ?_⟩
    · intro args hc
      cases hc
      exact retry_alike
    · intro args hc
      cases hc
  exact ⟨htwo, keys_kept digestPlatform _ digestPlatform_noCollision (releaseAnswers_fresh _) htwo⟩

end Device
end EgoBridge
