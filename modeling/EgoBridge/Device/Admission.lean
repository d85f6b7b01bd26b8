import EgoBridge.Device.Lifecycle
import EgoBridge.Device.Handoff

/-!
# Device.Admission

The local gate over whole histories of commands.

* `ConfirmedGate`       — an open gate goes back to a claim or a resume of its binding, and nothing
  has been confirmed for the binding since.
* `admission_confirmed` — it holds in every run in which no policy update of a binding finds its
  gate open or its handoff stored, and no claim or resume is answered with a paused binding.
-/

namespace EgoBridge
namespace Device

open Protocol Json Crash

variable (P : Platform) (E : Surroundings)

/-! ## What was confirmed last -/

/-- The last confirmation that was accepted for the binding. -/
def lastConfirmed (bindingId : String) : List Entry → Option Confirmation
  | [] => none
  | e :: older =>
    match e.event with
    | .confirmed c => if c.bindingId = bindingId then some c else lastConfirmed bindingId older
    | _ => lastConfirmed bindingId older

/-- A claim or a resume that the server did not report as paused. -/
def Confirmation.Admits (c : Confirmation) : Prop :=
  (c.command = .claim ∨ c.command = .resume) ∧ c.status ≠ some "paused"

/-- The gate stands open for the binding. -/
def OpenTo (s : Store) (bindingId : String) : Prop :=
  ∃ r, s.localAdmission = some r ∧ r.state = LOCAL_ADMISSION_OPEN ∧ r.bindingId = some bindingId

/-- The binding was admitted last. -/
def Admitted (bindingId : String) (log : List Entry) : Prop :=
  ∃ c, lastConfirmed bindingId log = some c ∧ c.Admits

def ConfirmedGate (w : World) : Prop := ∀ b, OpenTo w.store b → Admitted b w.log

/-- The gate is not open. -/
def Shut (w : World) : Prop := ∀ b, ¬ OpenTo w.store b

/-- A kind of step that neither confirms anything nor moves the gate. -/
def Kind.gateless : Kind → Bool
  | .confirmed => false
  | .write .localAdmission => false
  | _ => true

section

variable {P E}

theorem Shut.confirmedGate {w : World} (h : Shut w) : ConfirmedGate w :=
  fun b hb => absurd hb (h b)

theorem lastConfirmed_other {event : Event} (h : ∀ c, event ≠ .confirmed c) (s : Store)
    (b : String) (log : List Entry) :
    lastConfirmed b (⟨event, s⟩ :: log) = lastConfirmed b log := by
  cases event with
  | confirmed c => exact absurd rfl (h c)
  | _ => rfl

/-- The step leaves what was confirmed as it is, and opens no gate. -/
theorem Change.gateless {w w' : World} {k : Kind} (h : Change P w w' k) (hk : k.gateless = true) :
    (∀ b, lastConfirmed b w'.log = lastConfirmed b w.log) ∧
      ∀ b, OpenTo w'.store b → OpenTo w.store b := by
  cases k with
  | write file =>
    cases file with
    | credential =>
      obtain ⟨c, -, -, rfl⟩ := h
      exact ⟨fun b => lastConfirmed_other (by simp) _ b _, fun _ h => h⟩
    | key | policy =>
      obtain ⟨x, rfl⟩ := h
      exact ⟨fun b => lastConfirmed_other (by simp) _ b _, fun _ h => h⟩
    | identityMetadata | pendingRegistration | activeBinding =>
      obtain ⟨x, -, rfl⟩ := h
      exact ⟨fun _ => rfl, fun _ h => h⟩
    | pendingKeyRotation | pendingRotation =>
      obtain ⟨x, rfl⟩ := h
      exact ⟨fun _ => rfl, fun _ h => h⟩
    | localAdmission => cases hk
  | remove file =>
    cases h
    refine ⟨fun _ => rfl, ?_⟩
    cases file with
    | localAdmission =>
      rintro b ⟨r, hr, -⟩
      cases hr
    | _ => exact fun _ h => h
  | sent =>
    obtain ⟨q, r, rfl⟩ := h
    exact ⟨fun b => lastConfirmed_other (by simp) _ b _, fun _ h => h⟩
  | issued =>
    obtain ⟨c, rfl⟩ := h
    exact ⟨fun b => lastConfirmed_other (by simp) _ b _, fun _ h => h⟩
  | confirmed => cases hk

theorem ConfirmedGate.change {w w' : World} {k : Kind} (h : ConfirmedGate w)
    (hc : Change P w w' k) (hk : k.gateless = true) : ConfirmedGate w' := by
  obtain ⟨hlast, hopen⟩ := hc.gateless hk
  intro b hb
  obtain ⟨c, hl, ha⟩ := h b (hopen b hb)
  exact ⟨c, (hlast b).trans hl, ha⟩

theorem Shut.change {w w' : World} {k : Kind} (h : Shut w) (hc : Change P w w' k)
    (hk : k ≠ .write .localAdmission) : Shut w' := by
  intro b hb
  by_cases hconfirmed : k = .confirmed
  · subst hconfirmed
    obtain ⟨c, rfl⟩ := hc
    exact h b hb
  · refine h b ((hc.gateless ?_).2 b hb)
    cases k with
    | write file => cases file <;> first | rfl | exact absurd rfl hk
    | confirmed => exact absurd rfl hconfirmed
    | _ => rfl

theorem Changes.keepsGate {α : Type} {kinds : List Kind} {p : Command α} (h : Changes P kinds p)
    (hk : ∀ k ∈ kinds, k.gateless = true) : Cmd.Keeps E ConfirmedGate p :=
  h.keeps fun k hk' _ _ hc hw => hw.change hc (hk k hk')

theorem Changes.keepsShut {α : Type} {kinds : List Kind} {p : Command α} (h : Changes P kinds p)
    (hk : .write .localAdmission ∉ kinds) : Cmd.Keeps E Shut p :=
  h.keeps fun _ hk' _ _ hc hw => hw.change hc fun he => hk (he ▸ hk')

theorem shut_of_closed {w : World} {r : LocalAdmissionRecord}
    (hr : r.state = LOCAL_ADMISSION_CLOSED) :
    Shut (w.stored { w.store with localAdmission := some r }) := by
  rintro b ⟨r', hr', hopen, -⟩
  cases hr'
  rw [hr] at hopen
  revert hopen
  decide

/-! ## Closing and opening -/

/-- Once the gate is closed, it is closed for good in this command. -/
theorem wp_closed {α : Type} {f : Unit → Command α} {w : World} (h : ConfirmedGate w)
    (hf : Cmd.Keeps E Shut (f ())) :
    Cmd.wp E ConfirmedGate (fun _ => ConfirmedGate) (closeLocalAdmission P >>= f)
      (fun _ => ConfirmedGate) w := by
  rw [Cmd.wp_bind, closeLocalAdmission, Cmd.wp_bind]
  refine Probe.wp _ h (fun _ _ => h) fun r hr => ?_
  have hstate : r.state = LOCAL_ADMISSION_CLOSED := by
    refine Cmd.wp_returns (I := fun _ => True) (F := fun _ _ => True)
      (R := fun r _ => r.state = LOCAL_ADMISSION_CLOSED) hr ?_
    refine Probe.wp_bind trivial (fun _ _ => trivial) fun _ _ => ?_
    exact Probe.wp_bind trivial (fun _ _ => trivial) fun _ _ => rfl
  have hshut := shut_of_closed (w := w) hstate
  rw [writeLocalAdmission, Cmd.wp_ite]
  refine ⟨fun _ => h, fun _ => ?_⟩
  refine wp_atomicOwnerWrite h (fun _ _ => h) (fun _ _ => hshut.confirmedGate) ?_
  exact Cmd.wp_mono (fun _ h => h.confirmedGate) (fun _ _ h => h.confirmedGate)
    (fun _ _ h => h.confirmedGate) (hf _ hshut)

theorem keepsShut_close : Cmd.Keeps E Shut (closeLocalAdmission P) :=
  keeps_closeLocalAdmission fun _ _ _ hr => shut_of_closed hr

/-- The gate may be opened to a binding that was admitted last. -/
theorem keeps_openBinding {b : ActiveBinding} :
    Cmd.Keeps E (fun w => ConfirmedGate w ∧ Admitted b.bindingId w.log) (openBinding P b) := by
  have hkinds : ∀ {α : Type} {kinds : List Kind} {p : Command α}, Changes P kinds p →
      (∀ k ∈ kinds, k.gateless = true) →
      Cmd.Keeps E (fun w => ConfirmedGate w ∧ Admitted b.bindingId w.log) p := by
    intro α kinds p hp hk
    refine hp.keeps fun k hk' w w' hc hw => ⟨hw.1.change hc (hk k hk'), ?_⟩
    rw [Admitted, (hc.gateless (hk k hk')).1]
    exact hw.2
  have hsave : Changes P [.write .activeBinding] (saveActiveBinding b) :=
    changes_saveActiveBinding (by decide)
  have hclear : Changes P [.remove .activeBinding] clearActiveBinding :=
    changes_clearActiveBinding (by decide)
  unfold openBinding
  refine .bind (hkinds hsave (by decide)) fun _ => ?_
  refine .bind (.attempt (keeps_openLocalAdmission ?_)) fun result => ?_
  · intro w r hw hr
    refine ⟨?_, hw.2⟩
    rintro b' ⟨r', hr', -, hid⟩
    cases hr'
    rw [hr] at hid
    cases hid
    exact hw.2
  · cases result with
    | ok _ => exact .pure _
    | error e =>
      refine .bind (.attempt (hkinds hclear (by decide))) fun _ => ?_
      refine .bind (.attempt (keeps_closeLocalAdmission ?_)) fun _ => keeps_probe _
      intro w r hw hr
      exact ⟨(shut_of_closed hr).confirmedGate, hw.2⟩

/-- A confirmation that admits its binding. -/
theorem ConfirmedGate.admits {w : World} (h : ConfirmedGate w) {c : Confirmation}
    (hc : c.Admits) : ConfirmedGate (w.logged (.confirmed c)) ∧
      Admitted c.bindingId (w.logged (.confirmed c)).log := by
  have hself : Admitted c.bindingId (w.logged (.confirmed c)).log :=
    ⟨c, if_pos rfl, hc⟩
  refine ⟨?_, hself⟩
  intro b hb
  by_cases he : c.bindingId = b
  · rw [← he]
    exact hself
  · obtain ⟨c', hl, ha⟩ := h b hb
    exact ⟨c', (if_neg he).trans hl, ha⟩

/-! ## Bindings -/

theorem ConfirmedGate.sent {w : World} (h : ConfirmedGate w) (q : Request)
    (r : Option Registration) : ConfirmedGate (w.logged (.sent q r)) := by
  intro b hb
  obtain ⟨c, hl, ha⟩ := h b hb
  exact ⟨c, (lastConfirmed_other (by simp) _ b _).trans hl, ha⟩

theorem keepsShut_remove {change : Store → Store}
    (h : ∀ s b, OpenTo (change s) b → OpenTo s b) :
    Cmd.Keeps E Shut (removeOwnerFileIfPresent change) := by
  unfold removeOwnerFileIfPresent
  refine .bind (keeps_probe _) fun outcome => ?_
  cases outcome with
  | none => exact .update fun w hw b hb => hw b (h _ b hb)
  | some fault => exact keeps_probe _

theorem keepsShut_clearActiveBinding : Cmd.Keeps E Shut clearActiveBinding :=
  keepsShut_remove fun _ _ h => h

theorem keepsShut_bindingRequest {client : DeviceApiClient} {bindingId : String}
    {generation : UInt64} {operation path : String} {members : List (String × Json)} :
    Cmd.Keeps E Shut (client.bindingRequest P bindingId generation operation path members) := by
  have h : Changes P [.sent]
      (client.bindingRequest P bindingId generation operation path members) :=
    changes_bindingRequest (by decide)
  exact h.keepsShut (by decide)

theorem keepsShut_record (c : Confirmation) : Cmd.Keeps E Shut (record (.confirmed c)) :=
  .update fun _ h => h

theorem wp_pauseGate {args : List String} {w : World} (h : ConfirmedGate w) :
    Cmd.wp E ConfirmedGate (fun _ => ConfirmedGate) (pause P args) (fun _ => ConfirmedGate) w := by
  rw [pause]
  refine wp_probe h fun b _ => wp_closed h ?_
  refine .bind keepsShut_bindingRequest fun result => ?_
  unfold persistPausedBinding
  refine .bind (keeps_probe _) fun s => .bind (keeps_probe _) fun existing => ?_
  refine .bind (keeps_probe _) fun binding => ?_
  refine keeps_check fun _ => ?_
  have hsave : Changes P [.write .activeBinding] (saveActiveBinding binding) :=
    changes_saveActiveBinding (by decide)
  refine .bind (keepsShut_record _) fun _ => ?_
  exact .bind (hsave.keepsShut (by decide)) fun _ => keepsShut_close

theorem wp_stopGate {args : List String} {w : World} (h : ConfirmedGate w) :
    Cmd.wp E ConfirmedGate (fun _ => ConfirmedGate) (stop P args) (fun _ => ConfirmedGate) w := by
  rw [stop]
  refine wp_probe h fun b _ => wp_closed h ?_
  refine .bind keepsShut_bindingRequest fun result => ?_
  exact .bind (keepsShut_record _) fun _ => keepsShut_clearActiveBinding

theorem wp_revokeGate {args : List String} {w : World} (h : ConfirmedGate w) :
    Cmd.wp E ConfirmedGate (fun _ => ConfirmedGate) (revoke P args)
      (fun _ => ConfirmedGate) w := by
  rw [revoke]
  refine wp_probe h fun b _ => wp_closed h ?_
  refine .bind keepsShut_bindingRequest fun result => ?_
  exact .bind (keepsShut_record _) fun _ => keepsShut_clearActiveBinding

end

/-- Every answer of the server to a request at the path is as said. -/
def AnsweredAt (T : Json → Prop) (path : String) : Prop :=
  ∀ w request x body, request.path = path → E w (.post request) x → x.decode = .ok body → T body

/-- The response confirms a binding, and reports it as paused. -/
def ConfirmsPaused (response : Json) : Prop :=
  responseStatus response = some "paused" ∧
    ∃ deviceId label b, activeBindingFromResponse deviceId label response = .ok b

section

variable {P E}

theorem wp_persistAdmitted {command : Lifecycle} {deviceId expectedTaskSpace : String}
    {response : Json} {w : World} (hc : command = .claim ∨ command = .resume)
    (hp : ¬ ConfirmsPaused response) (h : ConfirmedGate w) :
    Cmd.wp E ConfirmedGate (fun _ => ConfirmedGate)
      (persistActiveBinding P command deviceId expectedTaskSpace response)
      (fun _ => ConfirmedGate) w := by
  rw [persistActiveBinding, Cmd.wp_bind, liftFailure]
  cases hb : activeBindingFromResponse deviceId expectedTaskSpace response with
  | error e => exact h
  | ok b =>
    have hadmits : (⟨command, b.bindingId, responseStatus response, none⟩ : Confirmation).Admits :=
      ⟨hc, fun hs => hp ⟨hs, deviceId, expectedTaskSpace, b, hb⟩⟩
    have hrecorded : command ≠ .confirmAllowlist := by rcases hc with rfl | rfl <;> decide
    show Cmd.wp E _ _ (if command ≠ .confirmAllowlist then _ else _) _ w
    rw [if_pos hrecorded, Cmd.wp_bind, wp_record]
    refine ⟨h, ?_⟩
    exact Cmd.wp_mono (fun _ h => h.1) (fun _ _ h => h.1) (fun _ _ h => h.1)
      (keeps_openBinding _ (h.admits hadmits))

theorem wp_claimGate {build : Build} {args : List String} {w : World}
    (hp : hasOption args "--confirm" →
      AnsweredAt E (¬ ConfirmsPaused ·) "/api/v1/ego-browser/bindings/claim")
    (h : ConfirmedGate w) :
    Cmd.wp E ConfirmedGate (fun _ => ConfirmedGate) (claim P build args)
      (fun _ => ConfirmedGate) w := by
  rw [claim.eq_def]
  cases args.head? with
  | none => exact h
  | some session =>
    refine wp_check h fun hconfirm => ?_
    refine wp_probe h fun nowUnix _ => wp_probe h fun s _ => ?_
    refine wp_probe h fun credential _ => wp_probe h fun policy _ => ?_
    refine wp_probe h fun identity _ => wp_probe h fun client _ => ?_
    rw [Cmd.wp_bind, DeviceApiClient.claim, Cmd.wp_bind]
    have hproof : Changes P [.sent]
        (client.addProofForGeneration P client.identity.generation "claim_binding" none) :=
      changes_addProofForGeneration (by decide)
    refine Cmd.wp_post (hproof.keepsGate (by decide) w h) fun _ w₁ h₁ => ?_
    refine wp_postWithIdempotency rfl h₁ (h₁.sent _ _)
      (fun _ _ _ _ => h₁.sent _ _) fun x hx body hb => ?_
    exact wp_persistAdmitted (.inl rfl) (hp (not_not.mp hconfirm) _ _ x body rfl hx hb)
      (h₁.sent _ _)

theorem bindingClient_head {args : List String} {b : BindingClient} {w w' : World}
    (h : Cmd.Returns E (bindingClient P args).1 w b w') : args.head? = some b.bindingId := by
  refine Cmd.wp_returns (I := fun _ => True) (F := fun _ _ => True)
    (R := fun b _ => args.head? = some b.bindingId) h ?_
  rw [bindingClient]
  cases args.head? with
  | none => trivial
  | some bindingId =>
    refine Probe.wp_bind trivial (fun _ _ => trivial) fun text _ => ?_
    cases text with
    | none => trivial
    | some text =>
      refine Probe.wp_bind trivial (fun _ _ => trivial) fun generation _ => ?_
      refine Probe.wp_bind trivial (fun _ _ => trivial) fun nowUnix _ => ?_
      refine Probe.wp_bind trivial (fun _ _ => trivial) fun s _ => ?_
      refine Probe.wp_bind trivial (fun _ _ => trivial) fun credential _ => ?_
      refine Probe.wp_bind trivial (fun _ _ => trivial) fun identity _ => ?_
      exact Probe.wp_bind trivial (fun _ _ => trivial) fun client _ => rfl

theorem wp_resumeGate {build : Build} {args : List String} {w : World}
    (hp : hasOption args "--confirm" → ∀ X, args.head? = some X →
      AnsweredAt E (¬ ConfirmsPaused ·) ("/api/v1/ego-browser/bindings/" ++ X ++ "/resume"))
    (h : ConfirmedGate w) :
    Cmd.wp E ConfirmedGate (fun _ => ConfirmedGate) (resume P build args)
      (fun _ => ConfirmedGate) w := by
  rw [resume.eq_def]
  refine wp_probe h fun b hb => wp_probe h fun s _ => ?_
  refine wp_probe h fun handoff _ => ?_
  refine wp_check h fun hconfirm => ?_
  refine wp_probe h fun policy _ => ?_
  rw [Cmd.wp_bind]
  refine Cmd.wp_post (wp_bindingRequest (fun _ q r hw => hw.sent q r)
    (hp (not_not.mp hconfirm) b.bindingId (bindingClient_head hb)) h) ?_
  rintro result w' ⟨h', hstatus⟩
  exact wp_persistAdmitted (.inr rfl) hstatus h'

end

/-- The server confirms a policy for the binding, whichever it is. -/
def ConfirmsPolicy (bindingId : String) (response : Json) : Prop :=
  ∃ deviceId generation policy label next, confirmedAllowlistGeneration response bindingId deviceId
    generation policy label = .ok next

/-- No handoff of the binding in this generation is stored, and the gate is not left open to the
binding without its handoff. -/
def Unheld (bindingId : String) (generation : Option String) (s : Store) : Prop :=
  (∀ b, s.activeBinding = some b → b.bindingId = bindingId →
    ∀ text, generation = some text → parseGeneration text ≠ .ok b.generation) ∧
  (s.activeBinding = none → ¬ OpenTo s bindingId)

/-! ## Policy changes and removal -/

section

variable {P E}

theorem loadActiveBinding_none {s : Store} {deviceId : String}
    (h : ifPresent (s.loadActiveBinding deviceId) = .ok none) : s.activeBinding = none := by
  rw [Store.loadActiveBinding] at h
  cases hb : s.activeBinding with
  | none => rfl
  | some b =>
    rw [hb, ownerFile] at h
    split at h
    · rename_i e he
      split at he <;> cases he
      cases h
    · rename_i b' _
      by_cases hd : b'.deviceId ≠ deviceId
      · rw [if_pos hd] at h
        cases h
      · rw [if_neg hd] at h
        by_cases hv : ¬ validActiveBinding b' = true
        · rw [if_pos hv] at h
          cases h
        · rw [if_neg hv] at h
          cases h

theorem loadActiveBinding_some {s : Store} {deviceId : String} {b : ActiveBinding}
    (h : ifPresent (s.loadActiveBinding deviceId) = .ok (some b)) : s.activeBinding = some b := by
  rw [Store.loadActiveBinding] at h
  cases hb : s.activeBinding with
  | none =>
    rw [hb] at h
    cases h
  | some b' =>
    rw [hb, ownerFile] at h
    by_cases hs : MAX_CREDENTIAL_BYTES < b'.toJson.size
    · rw [if_pos hs] at h
      cases h
    · rw [if_neg hs] at h
      by_cases hd : b'.deviceId ≠ deviceId
      · simp only [if_pos hd] at h
        cases h
      · simp only [if_neg hd] at h
        by_cases hv : ¬ validActiveBinding b' = true
        · rw [if_pos hv] at h
          cases h
        · rw [if_neg hv] at h
          cases h
          rfl

/-- A confirmation of another command than a claim or a resume, where the gate is not open. -/
theorem ConfirmedGate.confirmed {w : World} (h : ConfirmedGate w) {c : Confirmation}
    (hc : ¬ OpenTo w.store c.bindingId) : ConfirmedGate (w.logged (.confirmed c)) := by
  intro b hb
  obtain ⟨c', hl, ha⟩ := h b hb
  refine ⟨c', (if_neg ?_).trans hl, ha⟩
  rintro rfl
  exact hc hb

theorem wp_confirmGate {bindingId : String} {generation : Option String}
    {update : PreparedPolicyUpdate} {verified : VerifiedLocalPolicy} {w : World}
    (h : ConfirmedGate w)
    (hs : AnsweredAt E (¬ ConfirmsPolicy bindingId ·)
      ("/api/v1/ego-browser/bindings/" ++ bindingId ++ "/allowlist/confirm") ∨
      Unheld bindingId generation w.store) :
    Cmd.wp E ConfirmedGate (fun _ => ConfirmedGate)
      (confirmBindingAllowlist P bindingId generation update verified)
      (fun _ => ConfirmedGate) w := by
  have hrequest : ∀ (client : DeviceApiClient) (g revision : UInt64) (digest : String),
      Changes P [.sent] (client.confirmAllowlist P bindingId g revision digest) :=
    fun _ _ _ _ => changes_bindingRequest (by decide)
  have hclear : Changes P [.remove .activeBinding] clearActiveBinding :=
    changes_clearActiveBinding (by decide)
  have hpolicy : Changes P [.write .policy] (commitPolicyUpdate update) :=
    changes_commitPolicyUpdate (by decide)
  rw [confirmBindingAllowlist.eq_def]
  cases generation with
  | none => exact h
  | some text =>
    rw [Cmd.wp_bind]
    cases hg : parseGeneration text with
    | error e => exact h
    | ok generation =>
      show Cmd.wp E _ _ _ _ w
      refine wp_probe h fun nowUnix _ => wp_probe h fun s _ => ?_
      refine wp_probe h fun credential _ => wp_probe h fun identity _ => ?_
      rw [Cmd.wp_bind, wp_theStore, Cmd.wp_bind]
      refine wp_lift (fun _ _ => h) fun active hactive => ?_
      refine wp_check h fun hmatches => ?_
      refine wp_probe h fun client _ => ?_
      refine wp_check h fun _ => ?_
      cases verified.allowlistRootsDigest with
      | none => exact h
      | some digest =>
        rw [Cmd.wp_bind]
        rcases hs with hs | ⟨hheld, hopen⟩
        · -- No answer is taken for a confirmation.
          refine Cmd.wp_post (wp_bindingRequest (fun _ q r hw => hw.sent q r) hs h) ?_
          rintro result w₁ ⟨h₁, hnone⟩
          refine wp_liftFailure_bind (fun _ _ => h₁) fun next hnext => ?_
          exact absurd ⟨_, _, _, _, next, hnext⟩ hnone
        · cases active with
          | some b =>
            have hstored := loadActiveBinding_some hactive
            simp only [Option.any_some, ne_eq, Bool.or_eq_true, decide_eq_true_eq, not_or,
              not_not] at hmatches
            obtain ⟨hid, rfl⟩ := hmatches
            exact absurd hg (hheld b hstored hid text rfl)
          | none =>
            have hshut := hopen (loadActiveBinding_none hactive)
            have hkeeps : Cmd.Keeps E (fun w => ConfirmedGate w ∧ ¬ OpenTo w.store bindingId)
                (client.confirmAllowlist P bindingId generation
                  (verified.allowlistRevision - 1) digest) :=
              (hrequest client generation _ digest).keeps fun k hk w w' hc hw => by
                cases List.mem_singleton.mp hk
                exact ⟨hw.1.change hc rfl, fun ho => hw.2 ((hc.gateless rfl).2 _ ho)⟩
            have hanswered : Cmd.wp E ConfirmedGate (fun _ => ConfirmedGate)
                (client.confirmAllowlist P bindingId generation
                  (verified.allowlistRevision - 1) digest)
                (fun _ w => ConfirmedGate w ∧ ¬ OpenTo w.store bindingId) w :=
              Cmd.wp_mono (fun _ h => h.1) (fun _ _ h => h.1) (fun _ _ h => h)
                (hkeeps w ⟨h, hshut⟩)
            refine Cmd.wp_post hanswered ?_
            rintro result w₁ ⟨h₁, hshut₁⟩
            refine wp_liftFailure_bind (fun _ _ => h₁) fun next _ => ?_
            rw [Cmd.wp_bind, wp_record]
            refine ⟨h₁, ?_⟩
            have h₂ : ConfirmedGate (w₁.logged (.confirmed
              ⟨.confirmAllowlist, bindingId, responseStatus result, some verified⟩)) :=
              h₁.confirmed hshut₁
            rw [Cmd.wp_bind]
            refine Cmd.wp_post (hclear.keepsGate (by decide) _ h₂) fun _ w₃ h₃ => ?_
            rw [Cmd.wp_bind]
            exact hpolicy.keepsGate (by decide) _ h₃

theorem wp_allowlistGate {build : Build} {args : List String} {w : World} (h : ConfirmedGate w)
    (hs : hasOption args "--confirm" → ∀ X generation, option args "--binding" = .ok (some X) →
      bindingGeneration args = .ok generation →
      AnsweredAt E (¬ ConfirmsPolicy X ·)
        ("/api/v1/ego-browser/bindings/" ++ X ++ "/allowlist/confirm") ∨
      Unheld X generation w.store) :
    Cmd.wp E ConfirmedGate (fun _ => ConfirmedGate) (allowlistSet P build args)
      (fun _ => ConfirmedGate) w := by
  rw [allowlistSet.eq_def]
  refine wp_check h fun hconfirm => ?_
  rw [Cmd.wp_bind]
  cases hbinding : option args "--binding" with
  | error e => exact h
  | ok binding =>
    show Cmd.wp E _ _ (liftM (liftText (bindingGeneration args)) >>= _) _ w
    rw [Cmd.wp_bind]
    cases hgeneration : bindingGeneration args with
    | error e => exact h
    | ok generation =>
      show Cmd.wp E _ _ (if _ then _ else _) _ w
      refine wp_check h fun _ => ?_
      refine wp_check h fun _ => ?_
      refine wp_probe h fun _ _ => wp_probe h fun runtime _ => wp_probe h fun _ _ => ?_
      refine wp_probe h fun roots _ => ?_
      refine wp_check h fun _ => ?_
      refine wp_probe h fun update _ => wp_probe h fun verified _ => ?_
      cases binding with
      | none => exact changes_synchronizeAndCommit.keepsGate (by decide) w h
      | some X =>
        exact wp_confirmGate h (hs (not_not.mp hconfirm) X generation hbinding hgeneration)

theorem keepsGate_ensure {build : Build} {args : List String} :
    Cmd.Keeps E ConfirmedGate (ensure P build args) := by
  refine keeps_ensure ?_ ?_
  · intro k hk w w' hc hw
    have hgateless : ∀ k ∈ ensureKinds, k.gateless = true := by decide
    exact hw.change hc (hgateless k hk)
  · intro w args identity inputs _ _ u _ w' hw'
    exact hw'.change (P := P) (k := .write .policy) ⟨u.next, rfl⟩ rfl

theorem keepsShut_clear : Cmd.Keeps E Shut (clear P) := by
  have hremove : ∀ f, Cmd.Keeps E Shut (removeOwnerFileIfPresent (Store.without · f)) := by
    intro f
    refine keepsShut_remove fun s b hb => ?_
    cases f with
    | localAdmission =>
      obtain ⟨r, hr, -⟩ := hb
      cases hr
    | _ => exact hb
  unfold clear
  refine .bind keepsShut_close fun _ => ?_
  refine .bind (keeps_probe _) fun fault => ?_
  have hlast : Cmd.Keeps E Shut (do
      removeOwnerFileIfPresent fun s => { s with credential := none }
      removeOwnerFileIfPresent fun s => { s with key := none }
      removeOwnerFileIfPresent fun s => { s with identityMetadata := none }
      removeOwnerFileIfPresent fun s => { s with pendingKeyRotation := none }
      removeOwnerFileIfPresent fun s => { s with pendingRotation := none }
      removeOwnerFileIfPresent fun s => { s with pendingRegistration := none }
      removeOwnerFileIfPresent fun s => { s with policy := none }
      removeOwnerFileIfPresent fun s => { s with activeBinding := none }
      removeOwnerFileIfPresent fun s => { s with localAdmission := none }) :=
    .bind (hremove .credential) fun _ => .bind (hremove .key) fun _ =>
      .bind (hremove .identityMetadata) fun _ => .bind (hremove .pendingKeyRotation) fun _ =>
      .bind (hremove .pendingRotation) fun _ => .bind (hremove .pendingRegistration) fun _ =>
      .bind (hremove .policy) fun _ => .bind (hremove .activeBinding) fun _ =>
      hremove .localAdmission
  cases fault with
  | none => exact hlast
  | some fault => exact .bind (keeps_probe _) fun _ => hlast

theorem wp_deviceRevokeGate {args : List String} {w : World} (h : ConfirmedGate w) :
    Cmd.wp E ConfirmedGate (fun _ => ConfirmedGate) (deviceRevoke P args)
      (fun _ => ConfirmedGate) w := by
  rw [deviceRevoke.eq_def]
  refine wp_check h fun _ => wp_closed h ?_
  refine .bind (keeps_probe _) fun nowUnix => .bind (keeps_probe _) fun s => ?_
  refine .bind (keeps_probe _) fun credential => .bind (keeps_probe _) fun identity => ?_
  refine .bind (keeps_probe _) fun client => ?_
  have hrevoke : Changes P [.sent] (client.revokeDevice P) :=
    .bind (.probe _) fun _ => .bind (changes_addProofForGeneration (by decide)) fun _ =>
      changes_postWithIdempotency (by decide)
  refine .bind (hrevoke.keepsShut (by decide)) fun result => ?_
  split
  · exact keeps_probe _
  · exact keeps_probe _
  · exact keeps_check fun _ => keepsShut_clear

theorem wp_retireGate {args : List String} {w : World} (h : ConfirmedGate w) :
    Cmd.wp E ConfirmedGate (fun _ => ConfirmedGate) (retireLocal P args)
      (fun _ => ConfirmedGate) w := by
  rw [retireLocal.eq_def]
  refine wp_check h fun _ => wp_closed h ?_
  have hretire : Changes P [.write .identityMetadata, .remove .credential, .remove .activeBinding]
      (retireRuntimeState P) :=
    changes_retireRuntimeState (by decide) (by decide) (by decide)
  exact hretire.keepsShut (by decide)

theorem wp_purgeGate {args : List String} {w : World} (h : ConfirmedGate w) :
    Cmd.wp E ConfirmedGate (fun _ => ConfirmedGate) (purgeLocal P args)
      (fun _ => ConfirmedGate) w := by
  rw [purgeLocal.eq_def]
  exact wp_check h fun _ => wp_closed h keepsShut_clear

theorem wp_metadataGate {args : List String} {w : World} (h : ConfirmedGate w) :
    Cmd.wp E ConfirmedGate (fun _ => ConfirmedGate) (metadata P args)
      (fun _ => ConfirmedGate) w := by
  rw [metadata.eq_def]
  have hmetadata : Changes P [.write .identityMetadata] (localMetadata P) :=
    changes_localMetadata (by decide)
  exact wp_check h fun _ => hmetadata.keepsGate (by decide) w h

end

/-! ## Runs -/

/-- All commands on one store whose gate is not open at first. -/
def deviceRuns : Run.System Invocation World :=
  commands E (fun w => w.log = [] ∧ Shut w) (·.run P)

/-- What is confirmed with `--confirm` is no paused binding, and a policy is confirmed for no
binding that holds the handoff or the gate. -/
structure AdmitsOnly (w : World) (i : Invocation) : Prop where
  claim : ∀ args, i.command = .claim args → hasOption args "--confirm" →
    AnsweredAt E (¬ ConfirmsPaused ·) "/api/v1/ego-browser/bindings/claim"
  resume : ∀ args, i.command = .resume args → hasOption args "--confirm" →
    ∀ X, args.head? = some X →
      AnsweredAt E (¬ ConfirmsPaused ·) ("/api/v1/ego-browser/bindings/" ++ X ++ "/resume")
  allowlistSet : ∀ args, i.command = .allowlistSet args → hasOption args "--confirm" →
    ∀ X generation, option args "--binding" = .ok (some X) →
      bindingGeneration args = .ok generation →
      AnsweredAt E (¬ ConfirmsPolicy X ·)
        ("/api/v1/ego-browser/bindings/" ++ X ++ "/allowlist/confirm") ∨
      Unheld X generation w.store

section

variable {P E}

theorem ConfirmedGate.run {w : World} {i : Invocation} (h : ConfirmedGate w)
    (ha : AdmitsOnly E w i) :
    Cmd.wp E ConfirmedGate (fun _ => ConfirmedGate) (i.run P) (fun _ => ConfirmedGate) w := by
  cases hcommand : i.command with
  | ensure args =>
    rw [Invocation.run, hcommand]
    exact keepsGate_ensure w h
  | deviceRotate args =>
    rw [Invocation.run, hcommand]
    exact changes_deviceRotate.keepsGate (by decide) w h
  | allowlistSet args =>
    rw [Invocation.run, hcommand]
    exact wp_allowlistGate h (ha.allowlistSet args hcommand)
  | learningSet args =>
    rw [Invocation.run, hcommand]
    exact changes_learningSet.keepsGate (by decide) w h
  | claim args =>
    rw [Invocation.run, hcommand]
    exact wp_claimGate (ha.claim args hcommand) h
  | resume args =>
    rw [Invocation.run, hcommand]
    exact wp_resumeGate (ha.resume args hcommand) h
  | pause args =>
    rw [Invocation.run, hcommand]
    exact wp_pauseGate h
  | stop args =>
    rw [Invocation.run, hcommand]
    exact wp_stopGate h
  | revoke args =>
    rw [Invocation.run, hcommand]
    exact wp_revokeGate h
  | deviceRevoke args =>
    rw [Invocation.run, hcommand]
    exact wp_deviceRevokeGate h
  | retireLocal args =>
    rw [Invocation.run, hcommand]
    exact wp_retireGate h
  | purgeLocal args =>
    rw [Invocation.run, hcommand]
    exact wp_purgeGate h
  | metadata args =>
    rw [Invocation.run, hcommand]
    exact wp_metadataGate h

theorem openTo_of_isOpen {s : Store} {deviceId : String} {b : ActiveBinding}
    (h : s.localAdmissionIsOpen deviceId b = .ok true) : OpenTo s b.bindingId := by
  rw [Store.localAdmissionIsOpen, Store.loadLocalAdmission, ownerFile.eq_def] at h
  cases hr : s.localAdmission with
  | none =>
    rw [hr] at h
    cases h
  | some r =>
    rw [hr] at h
    by_cases hsize : MAX_CREDENTIAL_BYTES < r.toJson.size
    · simp only [if_pos hsize] at h
      cases h
    · simp only [if_neg hsize] at h
      by_cases hlarge : 16 * 1024 < r.toJson.size
      · simp only [if_pos hlarge] at h
        cases h
      · simp only [if_neg hlarge] at h
        by_cases hv : ¬ validLocalAdmissionRecord r = true
        · simp only [if_pos hv] at h
          cases h
        · simp only [if_neg hv, Except.ok.injEq, Bool.and_eq_true, decide_eq_true_eq] at h
          exact ⟨r, hr, h.1.1.1, h.1.2⟩

/-- Without `--confirm` neither a claim nor a resume changes anything. -/
theorem unconfirmed_unchanged {i : Invocation} {args : List String} {w w' : World}
    (hc : i.command = .claim args ∨ i.command = .resume args) (hn : ¬ hasOption args "--confirm")
    (h : Cmd.Passes E (i.run P) w w') : w' = w := by
  refine Cmd.wp_passes (I := (· = w)) (F := fun _ => (· = w)) (R := fun _ => (· = w)) h ?_
    (fun _ _ h => h) (fun _ _ h => h)
  rcases hc with hc | hc
  · rw [Invocation.run, hc]
    show Cmd.wp _ _ _ (claim P i.build args) _ w
    rw [claim.eq_def]
    cases args.head? with
    | none => rfl
    | some session => exact wp_check rfl fun hconfirm => absurd (not_not.mp hconfirm) hn
  · rw [Invocation.run, hc]
    show Cmd.wp _ _ _ (resume P i.build args) _ w
    rw [resume.eq_def]
    refine wp_probe rfl fun b _ => wp_probe rfl fun s _ => wp_probe rfl fun handoff _ => ?_
    exact wp_check rfl fun hconfirm => absurd (not_not.mp hconfirm) hn

end

/-- Admission is open only to what a confirmed claim or resume admitted last, in any run in which
none of them is answered with a paused binding, and no policy is confirmed for a binding that
holds the handoff or the gate. -/
theorem admission_confirmed {w : World}
    (h : ((deviceRuns P E).restrict (AdmitsOnly E)).Reachable w) :
    (∀ deviceId b, w.store.localAdmissionIsOpen deviceId b = .ok true →
      Admitted b.bindingId w.log) ∧
    ∀ (i : Invocation) args w', i.command = .claim args ∨ i.command = .resume args →
      ¬ hasOption args "--confirm" → Cmd.Passes E (i.run P) w w' → w' = w := by
  have hgate : ConfirmedGate w := by
    refine Run.System.invariant ?_ ?_ h
    · rintro w ⟨-, hshut⟩
      exact hshut.confirmedGate
    · rintro w i w' hw ⟨hstep, ha⟩
      exact Cmd.wp_passes hstep (hw.run ha) (fun _ _ h => h) (fun _ _ h => h)
  exact ⟨fun _ b hb => hgate b.bindingId (openTo_of_isOpen hb),
    fun _ _ _ hc hn hp => unconfirmed_unchanged hc hn hp⟩

set_option maxRecDepth 4000

/-! ## A policy update of a paused binding -/

/-- The gate is open, and the binding was not admitted last. -/
def Reopened (w : World) : Prop :=
  w.store.localAdmissionIsOpen "device-1" reopenedBinding = .ok true ∧ ¬ Admitted "binding-1" w.log

theorem reopened : Reopened reopenedWorld := by
  have hopen : reopenedStore.localAdmissionIsOpen "device-1" reopenedBinding = .ok true :=
    ok_of_toOption rfl
  have hlast : lastConfirmed "binding-1" reopenedWorld.log =
      some ⟨.confirmAllowlist, "binding-1", responseStatus pausedReply, some widenedVerified⟩ := rfl
  refine ⟨hopen, ?_⟩
  rintro ⟨c, hc, hcommand, -⟩
  rw [hlast] at hc
  cases hc
  revert hcommand
  decide

theorem start_paused (E : Surroundings) : (deviceRuns samplePlatform E).init pausedWorld := by
  refine ⟨rfl, ?_⟩
  rintro b ⟨r, hr, -⟩
  cases hr

/-- A policy update of a paused binding opens the gate on the confirmation that it is paused. -/
theorem admission_reopened : ¬ ∀ P E w, (deviceRuns P E).Reachable w →
    ∀ deviceId b, w.store.localAdmissionIsOpen deviceId b = .ok true →
      Admitted b.bindingId w.log := by
  intro h
  obtain ⟨w, hpasses, rfl⟩ := allowlist_confirms
  have hr : (deviceRuns samplePlatform (Cmd.Given pausedAnswers)).Reachable reopenedWorld :=
    (Run.System.Reachable.start (start_paused _)).next ⟨sampleBuild, .allowlistSet pausedArgs⟩
      hpasses
  exact reopened.2 (h _ _ _ hr "device-1" reopenedBinding reopened.1)

/-! ## A paused binding that is resumed -/

def resumedReply : Json :=
  .obj [("data", .obj [("id", .str "binding-1"), ("ego_browser_device_id", .str "device-1"),
    ("generation", ofU64 2), ("status", .str "active"),
    ("authorization_mode", .str "ego_browser_script_full_trust"),
    ("task_space_label", .str "agent-remote:session-1")])]

def resumedAnswers : World → (q : Query) → Option q.Answer := releaseAnswers fun _ => resumedReply

def resumeArgs : List String := ["binding-1", "--binding-generation", "1", "--confirm"]

def resumePath : String := "/api/v1/ego-browser/bindings/binding-1/resume"

/-- The server has been asked to resume the binding. -/
def resumingWorld : World :=
  (pausedWorld.logged (.sent ⟨sampleOrigin, challengesPath, "egbc_token", none,
    pausedClient.challengePayload 1 "resume_binding" (some "binding-1")⟩ none)).logged
      (.sent ⟨sampleOrigin, resumePath, "egbc_token", none,
        .obj [("generation", ofU64 1), ("binding_generation", ofU64 1),
          ("user_confirmation", .bool true), ("allowlist_revision", ofU64 1),
          ("learning_bundle_digest", .null)]⟩ none)

def admittedWorld : World :=
  resumingWorld.logged (.confirmed ⟨.resume, "binding-1", responseStatus resumedReply, none⟩)

def resumedWorld : World := ⟨{ reopenedStore with policy := none }, admittedWorld.log⟩

theorem eval_resumingClient : (liftM (bindingClient samplePlatform resumeArgs) :
    Command BindingClient).eval resumedAnswers pausedWorld =
      some (⟨"binding-1", 1, sampleCredential, pausedClient⟩, pausedWorld) := by
  have hX : resumeArgs.head? = some "binding-1" := rfl
  rw [bindingClient, hX]
  simp only [probe_bind]
  rw [Cmd.eval_bind (some "1") pausedWorld rfl]
  simp only [probe_bind]
  rw [Cmd.eval_bind (1 : UInt64) pausedWorld rfl,
    Cmd.eval_bind (1 : UInt64) pausedWorld rfl,
    Cmd.eval_bind pausedStore pausedWorld rfl,
    Cmd.eval_bind sampleCredential pausedWorld rfl,
    Cmd.eval_bind sampleIdentity pausedWorld rfl,
    Cmd.eval_bind pausedClient pausedWorld rfl]
  rfl

theorem eval_resuming : (pausedClient.resume samplePlatform "binding-1" 1 1 none).eval
    resumedAnswers pausedWorld = some (resumedReply, resumingWorld) :=
  rfl

theorem eval_opening : (openBinding samplePlatform reopenedBinding).eval resumedAnswers
    admittedWorld = some ((), resumedWorld) := by
  have hopen : Changes samplePlatform [.write .activeBinding, .remove .activeBinding,
      .write .localAdmission] (openBinding samplePlatform reopenedBinding) :=
    changes_openBinding (by decide) (by decide) (by decide)
  exact eval_unlogged hopen rfl

theorem resume_opens : Cmd.Meets (Cmd.Given resumedAnswers)
    (resume samplePlatform sampleBuild resumeArgs) pausedWorld (· = resumedWorld) := by
  rw [resume]
  refine Cmd.Meets.after _ pausedWorld eval_resumingClient ?_
  refine Cmd.Meets.after pausedStore pausedWorld rfl ?_
  refine Cmd.Meets.after (sampleBinding "binding-1") pausedWorld rfl ?_
  rw [if_neg (by decide)]
  refine Cmd.Meets.after (default, ⟨1, 1, none, none, none⟩) pausedWorld rfl ?_
  refine Cmd.Meets.after resumedReply resumingWorld eval_resuming ?_
  rw [persistActiveBinding]
  refine Cmd.Meets.after reopenedBinding resumingWorld rfl ?_
  rw [if_pos (by decide)]
  refine Cmd.Meets.after () admittedWorld rfl ?_
  exact ⟨_, ⟨_, Cmd.returns_eval eval_opening⟩, rfl⟩

theorem resume_admitsOnly : AdmitsOnly (Cmd.Given resumedAnswers) pausedWorld
    ⟨sampleBuild, .resume resumeArgs⟩ where
  claim args hc := by cases hc
  resume args hc _ X hX w request x body hpath hx hbody := by
    rintro ⟨hpaused, -⟩
    cases hc
    cases hX
    have hreply : serverReply (fun _ => resumedReply) request = resumedReply := by
      rw [serverReply, if_neg]
      rw [hpath]
      decide
    cases hx
    rw [hreply] at hbody
    cases hbody
    revert hpaused
    decide
  allowlistSet args hc := by cases hc

/-- A confirmed resume opens the gate, and was the last confirmation. -/
theorem admission_confirmed_resumed :
    ((deviceRuns samplePlatform (Cmd.Given resumedAnswers)).restrict
      (AdmitsOnly (Cmd.Given resumedAnswers))).Reachable resumedWorld ∧
    resumedWorld.store.localAdmissionIsOpen "device-1" reopenedBinding = .ok true ∧
    Admitted "binding-1" resumedWorld.log := by
  obtain ⟨w, hw, rfl⟩ := resume_opens
  have hstart : ((deviceRuns samplePlatform (Cmd.Given resumedAnswers)).restrict
      (AdmitsOnly (Cmd.Given resumedAnswers))).Reachable pausedWorld :=
    .start (start_paused (Cmd.Given resumedAnswers))
  have hreach : ((deviceRuns samplePlatform (Cmd.Given resumedAnswers)).restrict
      (AdmitsOnly (Cmd.Given resumedAnswers))).Reachable resumedWorld :=
    hstart.next ⟨sampleBuild, .resume resumeArgs⟩ ⟨hw, resume_admitsOnly⟩
  have hopen : resumedWorld.store.localAdmissionIsOpen "device-1" reopenedBinding = .ok true :=
    ok_of_toOption rfl
  exact ⟨hreach, hopen,
    (admission_confirmed samplePlatform (Cmd.Given resumedAnswers) hreach).1 _ _ hopen⟩

end Device
end EgoBridge
