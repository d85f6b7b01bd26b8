import EgoBridge.Device.Footprint
import EgoBridge.Device.Served

/-!
# Device.Lifecycle

What `pause`, `resume`, `stop` and `revoke` of one binding do to the handoff and to the gate.

* `BindingCommand.request`, `settle` — a command up to the server's answer, and from there.
* `Respects`         — a command affects the binding it names, and refuses what is of another.
* `lifecycle_frame_iff` — when it does, whatever the server answers.
-/

namespace EgoBridge
namespace Device

open Protocol Json Crash

variable (P : Platform)

/-! ## Commands in two parts -/

inductive BindingCommand where
  | pause
  | resume
  | stop
  | revoke
  deriving DecidableEq

/-- What a command has when the server has answered. -/
structure Answered where
  bindingId : String
  generation : UInt64
  deviceId : String
  /-- The Task Space of the handoff, which a resume has looked at before. -/
  taskSpaceLabel : String
  response : Json

namespace BindingCommand

def run (build : Build) (args : List String) : BindingCommand → Command Unit
  | pause => Device.pause P args
  | resume => Device.resume P build args
  | stop => Device.stop P args
  | revoke => Device.revoke P args

/-- The command up to the server's answer. -/
def request (build : Build) (args : List String) : BindingCommand → Command Answered
  | pause => do
    let b ← bindingClient P args
    closeLocalAdmission P
    let result ← b.client.pause P b.bindingId b.generation
    pure ⟨b.bindingId, b.generation, b.credential.deviceId, "", result⟩
  | stop => do
    let b ← bindingClient P args
    closeLocalAdmission P
    let result ← b.client.stop P b.bindingId b.generation
    pure ⟨b.bindingId, b.generation, b.credential.deviceId, "", result⟩
  | revoke => do
    let b ← bindingClient P args
    closeLocalAdmission P
    let result ← b.client.revoke P b.bindingId b.generation
    pure ⟨b.bindingId, b.generation, b.credential.deviceId, "", result⟩
  | resume => do
    let b ← bindingClient P args
    let handoff ← lift ((← theStore).loadActiveBinding b.credential.deviceId)
    if ¬ hasOption args "--confirm" then
      failText "explicit --confirm is required to resume full-trust control"
    let (_, policy) ← loadVerifiedPolicy build
    let result ← b.client.resume P b.bindingId b.generation policy.allowlistRevision
      policy.learningBundleDigest
    pure ⟨b.bindingId, b.generation, b.credential.deviceId, handoff.taskSpaceLabel, result⟩

/-- What the command does with the answer. -/
def settle (a : Answered) : BindingCommand → Command Unit
  | pause => persistPausedBinding P a.deviceId a.response
  | stop => do
    record (.confirmed ⟨.stop, a.bindingId, responseStatus a.response, none⟩)
    clearActiveBinding
  | revoke => do
    record (.confirmed ⟨.revoke, a.bindingId, responseStatus a.response, none⟩)
    clearActiveBinding
  | resume => persistActiveBinding P .resume a.deviceId a.taskSpaceLabel a.response

theorem run_eq (build : Build) (args : List String) (c : BindingCommand) :
    c.run P build args = c.request P build args >>= fun a => c.settle P a := by
  cases c with
  | pause => simp only [run, Device.pause, request, settle, Cmd.bind_assoc]; rfl
  | stop => simp only [run, Device.stop, request, settle, Cmd.bind_assoc]; rfl
  | revoke => simp only [run, Device.revoke, request, settle, Cmd.bind_assoc]; rfl
  | resume =>
    simp only [run, Device.resume, request, settle, Cmd.bind_assoc]
    congr 1
    funext b
    congr 1
    funext s
    congr 1
    funext handoff
    split
    · rfl
    · simp only [Cmd.bind_assoc]
      rfl

end BindingCommand

/-! ## What a command may do -/

/-- The binding and the generation that the arguments name. -/
def Named (args : List String) (X : String) (g : UInt64) : Prop :=
  args.head? = some X ∧
    ∃ text, bindingGeneration args = .ok (some text) ∧ parseGeneration text = .ok g

def responseId (response : Json) : Option String := (get (responseData response) "id").bind asStr

def responseGeneration (response : Json) : Option UInt64 :=
  explicitOrLegacyU64 (responseData response) "binding_generation" "generation"

/-- The answer names another binding, or an older generation. -/
def NamesOther (X : String) (g : UInt64) (response : Json) : Prop :=
  (∃ id, responseId response = some id ∧ id ≠ X) ∨ ∃ n, responseGeneration response = some n ∧ n < g

namespace BindingCommand

/-- Where the command is posted to. -/
def path (X : String) : BindingCommand → String
  | pause => "/api/v1/ego-browser/bindings/" ++ X ++ "/pause"
  | resume => "/api/v1/ego-browser/bindings/" ++ X ++ "/resume"
  | stop => "/api/v1/ego-browser/bindings/" ++ X ++ "/stop"
  | revoke => "/api/v1/ego-browser/bindings/" ++ X ++ "/revoke"

end BindingCommand

/-- All that the server says to the command is `response`; it may also say nothing. -/
def Answering (E : Surroundings) (c : BindingCommand) (X : String) (response : Json) : Prop :=
  ∀ w request x body, request.path = c.path X → E w (.post request) x → x.decode = .ok body →
    body = response

/-- The command affects the binding it names, `X`, and no other. -/
structure Respects (E : Surroundings) (c : BindingCommand) (build : Build) (args : List String)
    (X : String) (g : UInt64) (response : Json) (w : World) : Prop where
  /-- A pause or a resume that succeeds leaves the handoff of the binding. -/
  names : c = .pause ∨ c = .resume → ∀ w', Cmd.Returns E (c.run P build args) w () w' →
    ∃ b, w'.store.activeBinding = some b ∧ b.bindingId = X ∧ g ≤ b.generation
  /-- A stop or a revoke never removes the handoff of another. -/
  keeps : c = .stop ∨ c = .revoke → ∀ w', Cmd.Passes E (c.run P build args) w w' →
    ∀ b, w.store.activeBinding = some b → b.bindingId ≠ X → w'.store.activeBinding = some b
  /-- The gate is opened for no other. -/
  opens : ∀ w', Cmd.Passes E (c.run P build args) w w' → ∀ r, w'.store.localAdmission = some r →
    r.state = LOCAL_ADMISSION_OPEN → w.store.localAdmission = some r ∨ r.bindingId = some X
  /-- What names another is refused, and the handoff is as it was. -/
  refuses : NamesOther X g response → (∀ w', ¬ Cmd.Returns E (c.run P build args) w () w') ∧
    ∀ w', Cmd.Passes E (c.run P build args) w w' → w'.store.activeBinding = w.store.activeBinding

/-! ## When it does -/

namespace BindingCommand

/-- The Task Space that the answer is compared with. -/
def taskSpace (a : Answered) (s : Store) : BindingCommand → Option String
  | pause => (s.loadActiveBinding a.deviceId).toOption.map (·.taskSpaceLabel)
  | _ => some a.taskSpaceLabel

/-- The answer confirms a binding of this device in the Task Space, whichever it names. -/
structure Confirms (c : BindingCommand) (a : Answered) (s : Store) : Prop where
  id : ∃ id, responseId a.response = some id ∧ isApiId id = true
  generation : ∃ n, responseGeneration a.response = some n ∧ n ≠ 0
  authorizationMode : (get (responseData a.response) "authorization_mode").bind asStr =
    some "ego_browser_script_full_trust"
  taskSpace : ∃ label, c.taskSpace a s = some label ∧ isDedicatedTaskSpace label = true ∧
    (get (responseData a.response) "task_space_label").bind asStr = some label
  device : (get (responseData a.response) "ego_browser_device_id").bind asStr = some a.deviceId ∧
    isApiId a.deviceId = true
  status : c = .pause → responseStatus a.response = some "paused"

/-- What a pause or a resume may be answered, and a stop or a revoke, with the handoff there is. -/
def Fits (a : Answered) (s : Store) (c : BindingCommand) : Prop :=
  match c with
  | pause => c.Confirms a s → ¬ NamesOther a.bindingId a.generation a.response
  | resume => c.Confirms a s → ¬ NamesOther a.bindingId a.generation a.response
  | _ => ¬ NamesOther a.bindingId a.generation a.response ∧
      ∀ b, s.activeBinding = some b → b.bindingId = a.bindingId

end BindingCommand

section

variable {P} {E : Surroundings} {w : World}

theorem activeBindingFromResponse_ok {deviceId expected : String} {response : Json}
    {b : ActiveBinding} : activeBindingFromResponse deviceId expected response = .ok b ↔
      responseId response = some b.bindingId ∧ responseGeneration response = some b.generation ∧
      (get (responseData response) "authorization_mode").bind asStr = some b.authorizationMode ∧
      (get (responseData response) "task_space_label").bind asStr = some expected ∧
      (get (responseData response) "ego_browser_device_id").bind asStr = some deviceId ∧
      b = ⟨1, b.bindingId, b.generation, deviceId, expected, b.authorizationMode, true⟩ := by
  constructor
  · intro h
    obtain ⟨id, hid, h⟩ := bind_ok h
    obtain ⟨generation, hgeneration, h⟩ := bind_ok h
    obtain ⟨mode, hmode, h⟩ := bind_ok h
    obtain ⟨label, hlabel, h⟩ := bind_ok h
    obtain ⟨he, h⟩ := ite_error_ok.mp h
    obtain ⟨hdevice, h⟩ := ite_error_ok.mp h
    rw [not_not] at he hdevice
    cases h
    subst he
    exact ⟨present_ok.mp hid, present_ok.mp hgeneration, present_ok.mp hmode,
      present_ok.mp hlabel, hdevice, rfl⟩
  · rintro ⟨hid, hgeneration, hmode, hlabel, hdevice, hb⟩
    rw [responseId] at hid
    rw [responseGeneration] at hgeneration
    simp only [activeBindingFromResponse, hid, hgeneration, hmode, hlabel, hdevice, present, ne_eq,
      not_true_eq_false, ↓reduceIte]
    show (if ¬ expected = expected then _ else _) = _
    rw [if_neg (not_not.mpr rfl)]
    exact congrArg Except.ok hb.symm

/-! ## Up to the answer -/

/-- A command has done no more than to close the gate. -/
def Before (w w' : World) : Prop :=
  ∃ adm, w'.store = { w.store with localAdmission := adm } ∧
    (adm = w.store.localAdmission ∨ ∃ r, adm = some r ∧ r.state = LOCAL_ADMISSION_CLOSED)

theorem Before.refl (w : World) : Before w w := ⟨_, rfl, .inl rfl⟩

theorem Before.logged {w' : World} (h : Before w w') (event : Event) :
    Before w (w'.logged event) := h

theorem Before.closed {w' : World} (h : Before w w') {r : LocalAdmissionRecord}
    (hr : r.state = LOCAL_ADMISSION_CLOSED) :
    Before w (w'.stored { w'.store with localAdmission := some r }) := by
  obtain ⟨adm, hs, -⟩ := h
  exact ⟨some r, by rw [stored_store, hs], .inr ⟨r, rfl, hr⟩⟩

theorem Before.loaded {w' : World} (h : Before w w') {deviceId : String} :
    Loaded P w'.store deviceId ↔ Loaded P w.store deviceId := by
  obtain ⟨adm, hs, -⟩ := h
  rw [Loaded, Loaded, hs]
  exact Iff.rfl

theorem keeps_writeLocalAdmission {I : World → Prop} {r : LocalAdmissionRecord}
    (h : ∀ w, I w → I (w.stored { w.store with localAdmission := some r })) :
    Cmd.Keeps E I (writeLocalAdmission r) := by
  intro w hw
  simp only [writeLocalAdmission, Cmd.wp_bind, Cmd.wp_ite, wp_fail]
  refine ⟨fun _ => hw, fun _ => ?_⟩
  exact wp_atomicOwnerWrite hw (fun _ _ => hw) (fun _ _ => h w hw) (h w hw)

theorem keeps_closeLocalAdmission {I : World → Prop}
    (h : ∀ w r, I w → r.state = LOCAL_ADMISSION_CLOSED →
      I (w.stored { w.store with localAdmission := some r })) :
    Cmd.Keeps E I (closeLocalAdmission P) := by
  intro w hw
  rw [closeLocalAdmission, Cmd.wp_bind, localAdmissionRecord, probe_bind, Cmd.wp_bind]
  refine Probe.wp _ hw (fun _ _ => hw) ?_
  rintro ⟨deviceId, deviceGeneration⟩ -
  rw [probe_bind, Cmd.wp_bind, wp_now]
  refine ⟨hw, fun t _ => ?_⟩
  rw [probe_pure, Cmd.wp_pure]
  exact keeps_writeLocalAdmission (fun w hw => h w _ hw rfl) w hw

theorem keeps_openLocalAdmission {I : World → Prop} {b : ActiveBinding}
    (h : ∀ w r, I w → r.bindingId = some b.bindingId →
      I (w.stored { w.store with localAdmission := some r })) :
    Cmd.Keeps E I (openLocalAdmission P b) := by
  intro w hw
  simp only [openLocalAdmission, Cmd.wp_bind, Cmd.wp_ite, wp_fail, wp_theStore]
  refine ⟨fun _ => hw, fun _ => ?_⟩
  cases w.store.loadForRotation P with
  | error e => exact hw
  | ok c =>
    simp only [Cmd.wp_ite, Cmd.wp_bind, wp_fail]
    refine ⟨fun _ => hw, fun _ => ?_⟩
    rw [probe_attempt, Cmd.wp_attempt]
    refine Probe.wp _ hw (fun _ _ => hw) ?_
    intro identity _
    rw [Cmd.wp_bind, wp_now]
    refine ⟨hw, fun t _ => ?_⟩
    exact keeps_writeLocalAdmission (fun w hw => h w _ hw rfl) w hw

theorem wp_bindingClient {args : List String} {X : String} {g : UInt64} {I : World → Prop}
    {F : Failure → World → Prop} {R : BindingClient → World → Prop} (hn : Named args X g)
    (hI : I w) (hF : ∀ e, F e w)
    (hR : ∀ b, b.bindingId = X → b.generation = g → Loaded P w.store b.credential.deviceId →
      R b w) : Cmd.wp E I F (liftM (bindingClient P args)) R w := by
  obtain ⟨hX, text, htext, hg⟩ := hn
  rw [bindingClient, hX]
  simp only [htext, hg, liftText, probe_bind, probe_pure, Cmd.wp_bind, Cmd.wp_pure, wp_now,
    wp_theStore]
  refine ⟨hI, fun t _ => wp_lift (fun _ _ => hF _) fun c hc => ?_⟩
  refine wp_loadIdentity hI (fun _ _ => hF _) fun i _ _ _ _ hk => ?_
  refine wp_lift (fun _ _ => hF _) fun client _ => ?_
  exact hR _ rfl rfl ⟨c, loadForRotation_of_load hc, rfl, hk⟩

/-- The answer to the command's own request is one that the server gives. -/
theorem wp_bindingRequest {client : DeviceApiClient} {X operation suffix : String} {g : UInt64}
    {members : List (String × Json)} {T : Json → Prop} {I : World → Prop} {w : World}
    (hlog : ∀ w request registration, I w → I (w.logged (.sent request registration)))
    (hans : ∀ w request x body, request.path = "/api/v1/ego-browser/bindings/" ++ X ++ suffix →
      E w (.post request) x → x.decode = .ok body → T body) (hI : I w) :
    Cmd.wp E I (fun _ => I) (client.bindingRequest P X g operation suffix members)
      (fun body w' => I w' ∧ T body) w := by
  rw [DeviceApiClient.bindingRequest, Cmd.wp_bind]
  refine wp_lift (fun _ _ => hI) fun _ _ => ?_
  rw [Cmd.wp_bind]
  have hchanges : Changes P [.sent] (client.addProofForGeneration P g operation (some X)) :=
    changes_addProofForGeneration (by decide)
  have hproof : Cmd.Keeps E I (client.addProofForGeneration P g operation (some X)) :=
    hchanges.keeps fun k hk w w' hc hw => by
      cases List.mem_singleton.mp hk
      obtain ⟨request, registration, rfl⟩ := hc
      exact hlog _ _ _ hw
  refine Cmd.wp_post (hproof w hI) fun _ w' hw' => ?_
  refine wp_postWithIdempotency rfl hw' (hlog _ _ _ hw') (fun _ _ _ _ => hlog _ _ _ hw') ?_
  exact fun x hx body hb => ⟨hlog _ _ _ hw', hans _ _ x body rfl hx hb⟩

theorem wp_request {c : BindingCommand} {build : Build} {args : List String} {X : String}
    {g : UInt64} {response : Json} (hn : Named args X g) (hans : Answering E c X response) :
    Cmd.wp E (Before w) (fun _ => Before w) (c.request P build args) (fun a w' => Before w w' ∧
      a.bindingId = X ∧ a.generation = g ∧ a.response = response ∧
      Loaded P w'.store a.deviceId) w := by
  have hclose : Cmd.Keeps E (Before w) (closeLocalAdmission P) :=
    keeps_closeLocalAdmission fun _ _ hw hr => hw.closed hr
  have hlog : ∀ w' request registration, Before w w' →
      Before w (w'.logged (.sent request registration)) := fun _ _ _ hw => hw.logged _
  cases c with
  | pause | stop | revoke =>
    rw [BindingCommand.request, Cmd.wp_bind]
    refine wp_bindingClient hn (.refl w) (fun _ => .refl w) ?_
    rintro b rfl rfl hl
    rw [Cmd.wp_bind]
    refine Cmd.wp_post (hclose w (.refl w)) fun _ w₁ hw₁ => ?_
    rw [Cmd.wp_bind]
    refine Cmd.wp_post (wp_bindingRequest hlog hans hw₁) ?_
    rintro _ w₂ ⟨hw₂, rfl⟩
    exact ⟨hw₂, rfl, rfl, rfl, hw₂.loaded.mpr hl⟩
  | resume =>
    rw [BindingCommand.request, Cmd.wp_bind]
    refine wp_bindingClient hn (.refl w) (fun _ => .refl w) ?_
    rintro b rfl rfl hl
    rw [Cmd.wp_bind, wp_theStore, Cmd.wp_bind]
    refine wp_lift (fun _ _ => .refl w) fun handoff _ => ?_
    simp only [Cmd.wp_ite, Cmd.wp_bind, wp_failText]
    refine ⟨fun _ => .refl w, fun _ => ?_⟩
    refine Probe.wp _ (.refl w) (fun _ _ => .refl w) ?_
    rintro ⟨_, policy⟩ _
    refine Cmd.wp_post (wp_bindingRequest hlog hans (.refl w)) ?_
    rintro _ w₂ ⟨hw₂, rfl⟩
    exact ⟨hw₂, rfl, rfl, rfl, hw₂.loaded.mpr hl⟩

/-! ## After the answer -/

/-- The gate is open to nobody but the binding, unless it has been so before. -/
def Opens (X : String) (w w' : World) : Prop :=
  ∀ r, w'.store.localAdmission = some r → r.state = LOCAL_ADMISSION_OPEN →
    w.store.localAdmission = some r ∨ r.bindingId = some X

/-- What holds at every moment of a command. -/
structure Framed (c : BindingCommand) (X : String) (g : UInt64) (response : Json) (w w' : World) :
    Prop where
  keeps : c = .stop ∨ c = .revoke → ∀ b, w.store.activeBinding = some b → b.bindingId ≠ X →
    w'.store.activeBinding = some b
  opens : Opens X w w'
  refuses : NamesOther X g response → w'.store.activeBinding = w.store.activeBinding

/-- What holds once it has succeeded. -/
structure Settled (c : BindingCommand) (X : String) (g : UInt64) (response : Json) (w w' : World) :
    Prop where
  framed : Framed c X g response w w'
  names : c = .pause ∨ c = .resume →
    ∃ b, w'.store.activeBinding = some b ∧ b.bindingId = X ∧ g ≤ b.generation
  accepted : ¬ NamesOther X g response

variable {c : BindingCommand} {X : String} {g : UInt64} {response : Json}

theorem Before.opens {w' : World} (h : Before w w') : Opens X w w' := by
  obtain ⟨adm, hs, ha⟩ := h
  intro r hr ho
  rw [hs] at hr
  rcases ha with rfl | ⟨r', rfl, hc⟩
  · exact .inl hr
  · cases hr
    rw [hc] at ho
    exact absurd ho (by decide)

theorem Before.activeBinding {w' : World} (h : Before w w') :
    w'.store.activeBinding = w.store.activeBinding := by
  obtain ⟨adm, hs, -⟩ := h
  rw [hs]

theorem Before.framed {w' : World} (h : Before w w') : Framed c X g response w w' where
  keeps _ _ hb _ := h.activeBinding.trans hb
  opens := h.opens
  refuses _ := h.activeBinding

theorem framed_of_opens {w' : World} (hc : c = .pause ∨ c = .resume)
    (hno : ¬ NamesOther X g response) (ho : Opens X w w') : Framed c X g response w w' where
  keeps h := by
    rcases hc with rfl | rfl <;> rcases h with h | h <;> cases h
  opens := ho
  refuses h := absurd h hno

/-- A binding that a response confirms is the one it names. -/
theorem named_of_not_other {deviceId expected : String} {b : ActiveBinding}
    (h : activeBindingFromResponse deviceId expected response = .ok b) :
    ¬ NamesOther X g response ↔ b.bindingId = X ∧ g ≤ b.generation := by
  obtain ⟨hid, hgeneration, -⟩ := activeBindingFromResponse_ok.mp h
  simp only [NamesOther, hid, hgeneration, Option.some.injEq, exists_eq_left', not_or, not_not,
    UInt64.not_lt]

/-- A response is accepted where it confirms a binding. -/
theorem confirms_iff {a : Answered} {s : Store} : c.Confirms a s ↔
    ∃ label b, c.taskSpace a s = some label ∧
      activeBindingFromResponse a.deviceId label a.response = .ok b ∧
      validActiveBinding b = true ∧ (c = .pause → responseStatus a.response = some "paused") := by
  constructor
  · rintro ⟨⟨id, hid, hiv⟩, ⟨n, hn, hn0⟩, hm, ⟨label, ht, hl, hlabel⟩, ⟨hd, hdv⟩, hs⟩
    refine ⟨label, ⟨1, id, n, a.deviceId, label, "ego_browser_script_full_trust", true⟩, ht, ?_, ?_,
      hs⟩
    · exact activeBindingFromResponse_ok.mpr ⟨hid, hn, hm, hlabel, hd, rfl⟩
    · simp [validActiveBinding, hiv, hdv, hn0, hl]
  · rintro ⟨label, b, ht, hb, hv, hs⟩
    obtain ⟨hid, hn, hm, hlabel, hd, hbe⟩ := activeBindingFromResponse_ok.mp hb
    rw [hbe] at hv
    simp only [validActiveBinding, decide_true, Bool.true_and, Bool.and_true, Bool.and_eq_true,
      decide_eq_true_eq] at hv
    obtain ⟨⟨⟨⟨hiv, hdv⟩, hn0⟩, hl⟩, hmode⟩ := hv
    exact ⟨⟨_, hid, hiv⟩, ⟨_, hn, hn0⟩, hm.trans (congrArg some hmode), ⟨label, ht, hl, hlabel⟩,
      ⟨hd, hdv⟩, hs⟩

theorem Opens.logged {w' : World} (h : Opens X w w') (event : Event) :
    Opens X w (w'.logged event) := h

/-- The handoff is another, and the gate as it was. -/
theorem Opens.handoff {w' : World} (h : Opens X w w') (b : Option ActiveBinding) :
    Opens X w (w'.stored { w'.store with activeBinding := b }) := h

theorem Opens.gate {w' : World} {r : LocalAdmissionRecord}
    (hr : r.state = LOCAL_ADMISSION_CLOSED ∨ r.bindingId = some X) :
    Opens X w (w'.stored { w'.store with localAdmission := some r }) := by
  intro r' hr' ho
  cases hr'
  rcases hr with hr | hr
  · rw [hr] at ho
    exact absurd ho (by decide)
  · exact .inr hr

theorem wp_saveActiveBinding {I : World → Prop} {F : Failure → World → Prop}
    {R : Unit → World → Prop} {b : ActiveBinding} {w : World} (hI : I w) (hF : ∀ e, F e w)
    (hsaved : validActiveBinding b = true →
      (∀ e, F e (w.stored { w.store with activeBinding := some b })) ∧
        R () (w.stored { w.store with activeBinding := some b })) :
    Cmd.wp E I F (saveActiveBinding b) R w := by
  simp only [saveActiveBinding, Cmd.wp_bind, Cmd.wp_ite, wp_fail]
  refine ⟨fun _ => hF _, fun hv => ?_⟩
  obtain ⟨hf, hr⟩ := hsaved (not_not.mp hv)
  exact wp_atomicOwnerWrite hI (fun _ _ => hF _) (fun _ _ => hf _) hr

/-- The gate may be open to the binding, or to whom it was. -/
theorem keeps_openBinding_rest {b : ActiveBinding} (hX : b.bindingId = X)
    (hc : c = .pause ∨ c = .resume) (hno : ¬ NamesOther X g response) {w₁ : World}
    (hw₁ : Opens X w w₁) (hb : w₁.store.activeBinding = some b) :
    Cmd.wp E (Framed c X g response w) (fun _ => Framed c X g response w) (do
      match ← (openLocalAdmission P b).attempt with
      | .ok () => pure ()
      | .error e => do
        let _ ← clearActiveBinding.attempt
        let _ ← (closeLocalAdmission P).attempt
        raise e) (fun _ w' => Opens X w w' ∧ w'.store.activeBinding = some b) w₁ := by
  have hopen : Cmd.Keeps E (fun w' => Opens X w w' ∧ w'.store.activeBinding = some b)
      (openLocalAdmission P b) :=
    keeps_openLocalAdmission fun _ _ h hr => ⟨.gate (.inr (hr.trans (congrArg some hX))), h.2⟩
  have hframed : ∀ {w'}, Opens X w w' → Framed c X g response w w' :=
    fun h => framed_of_opens hc hno h
  rw [Cmd.wp_bind, Cmd.wp_attempt]
  refine Cmd.wp_mono (fun _ h => hframed h.1) ?_ (fun _ _ h => h) (hopen w₁ ⟨hw₁, hb⟩)
  rintro e w₂ ⟨hw₂, -⟩
  rw [Cmd.wp_bind, Cmd.wp_attempt]
  have hclose : ∀ w₃, Opens X w w₃ → Cmd.wp E (Framed c X g response w)
      (fun _ => Framed c X g response w) (do
        let _ ← (closeLocalAdmission P).attempt
        raise e) (fun (_ : Unit) w' => Opens X w w' ∧ w'.store.activeBinding = some b) w₃ := by
    intro w₃ hw₃
    have hk : Cmd.Keeps E (Opens X w) (closeLocalAdmission P) :=
      keeps_closeLocalAdmission fun _ _ _ hr => .gate (.inl hr)
    rw [Cmd.wp_bind, Cmd.wp_attempt]
    exact Cmd.wp_mono (fun _ h => hframed h) (fun _ _ h => hframed h) (fun _ _ h => hframed h)
      (hk w₃ hw₃)
  exact wp_remove (hframed hw₂) (fun _ _ => hclose w₂ hw₂) (hclose _ (hw₂.handoff none))

/-- What fits the command is all it takes. -/
theorem wp_settle {a : Answered} {w₁ : World} (hw : Before w w₁) (hX : a.bindingId = X)
    (hg : a.generation = g) (hr : a.response = response) (hfits : c.Fits a w₁.store) :
    Cmd.wp E (Framed c X g response w) (fun _ => Framed c X g response w) (c.settle P a)
      (fun _ => Settled c X g response w) w₁ := by
  subst hX hg hr
  cases c with
  | stop | revoke =>
    obtain ⟨hno, hstored⟩ := hfits
    have hafter : ∀ (c : BindingCommand) w', w'.store = { w₁.store with activeBinding := none } →
        Framed c a.bindingId a.generation a.response w w' := by
      intro c w' hw'
      refine ⟨?_, ?_, fun h => absurd h hno⟩
      · intro _ b hb hne
        exact absurd (hstored b (hw.activeBinding.trans hb)) hne
      · intro r hr
        rw [hw'] at hr
        exact hw.opens r hr
    rw [BindingCommand.settle, Cmd.wp_bind, wp_record]
    refine ⟨hw.framed, ?_⟩
    refine wp_remove (hw.logged _).framed (fun _ _ => (hw.logged _).framed) ?_
    refine ⟨hafter _ _ rfl, ?_, hno⟩
    rintro (h | h) <;> cases h
  | pause =>
    rw [BindingCommand.settle, persistPausedBinding, Cmd.wp_bind, wp_theStore, Cmd.wp_bind]
    refine wp_lift (fun _ _ => hw.framed) fun existing hexisting => ?_
    refine wp_liftFailure_bind (fun _ _ => hw.framed) fun b hb => ?_
    simp only [Cmd.wp_ite, Cmd.wp_bind, wp_failText, wp_record]
    refine ⟨fun _ => hw.framed, fun hs => ⟨hw.framed, ?_⟩⟩
    refine wp_saveActiveBinding (hw.logged _).framed (fun _ => (hw.logged _).framed) fun hv => ?_
    have htask : BindingCommand.taskSpace a w₁.store .pause = some existing.taskSpaceLabel := by
      simp [BindingCommand.taskSpace, hexisting, Except.toOption]
    have hno := hfits (confirms_iff.mpr ⟨_, b, htask, hb, hv, fun _ => not_not.mp hs⟩)
    obtain ⟨hid, hge⟩ := (named_of_not_other hb).mp hno
    have hframed : ∀ {w'}, Opens a.bindingId w w' →
        Framed .pause a.bindingId a.generation a.response w w' :=
      fun h => framed_of_opens (.inl rfl) hno h
    have hsaved : Opens a.bindingId w (w₁.stored { w₁.store with activeBinding := some b }) :=
      hw.opens.handoff (some b)
    refine ⟨fun _ => hframed hsaved, ?_⟩
    have hk : Cmd.Keeps E (fun w' => Opens a.bindingId w w' ∧ w'.store.activeBinding = some b)
        (closeLocalAdmission P) :=
      keeps_closeLocalAdmission fun _ _ h hr => ⟨.gate (.inl hr), h.2⟩
    refine Cmd.wp_mono (fun _ h => hframed h.1) (fun _ _ h => hframed h.1) ?_ (hk _ ⟨hsaved, rfl⟩)
    exact fun _ w' h => ⟨hframed h.1, fun _ => ⟨b, h.2, hid, hge⟩, hno⟩
  | resume =>
    rw [BindingCommand.settle, persistActiveBinding]
    refine wp_liftFailure_bind (fun _ _ => hw.framed) fun b hb => ?_
    rw [if_pos (by decide), Cmd.wp_bind, wp_record]
    refine ⟨hw.framed, ?_⟩
    rw [openBinding, Cmd.wp_bind]
    refine wp_saveActiveBinding (hw.logged _).framed (fun _ => (hw.logged _).framed) fun hv => ?_
    have hno := hfits (confirms_iff.mpr ⟨_, b, rfl, hb, hv, fun h => (by cases h)⟩)
    obtain ⟨hid, hge⟩ := (named_of_not_other hb).mp hno
    have hsaved : Opens a.bindingId w (w₁.stored { w₁.store with activeBinding := some b }) :=
      hw.opens.handoff (some b)
    refine ⟨fun _ => framed_of_opens (.inr rfl) hno hsaved, ?_⟩
    refine Cmd.wp_post (keeps_openBinding_rest hid (.inr rfl) hno hsaved rfl) ?_
    exact fun _ w' h => ⟨framed_of_opens (.inr rfl) hno h.1, fun _ => ⟨b, h.2, hid, hge⟩, hno⟩

/-- A command whose answers fit respects the bindings of others. -/
theorem respects_of_fits {build : Build} {args : List String} (hn : Named args X g)
    (hans : Answering E c X response)
    (hfits : ∀ a w₁, Cmd.Returns E (c.request P build args) w a w₁ → c.Fits a w₁.store) :
    Respects P E c build args X g response w := by
  have hsettle : ∀ a w₁, Cmd.Returns E (c.request P build args) w a w₁ →
      Cmd.wp E (Framed c X g response w) (fun _ => Framed c X g response w) (c.settle P a)
        (fun _ => Settled c X g response w) w₁ := by
    intro a w₁ hr
    obtain ⟨hw₁, hX, hg, hres, -⟩ := Cmd.wp_returns hr (wp_request hn hans)
    exact wp_settle hw₁ hX hg hres (hfits a w₁ hr)
  have hpasses : ∀ w', Cmd.Passes E (c.run P build args) w w' → Framed c X g response w w' := by
    rintro w' ⟨p', h⟩
    rw [BindingCommand.run_eq] at h
    rcases h.of_bind with ⟨q, hq, -⟩ | ⟨a, w₁, hr, h⟩
    · exact (Cmd.wp_passes ⟨q, hq⟩ (wp_request hn hans) (fun _ _ h => h) fun _ _ h => h.1).framed
    · exact Cmd.wp_passes ⟨p', h⟩ (hsettle a w₁ hr) (fun _ _ h => h) fun _ _ h => h.framed
  have hreturns : ∀ w', Cmd.Returns E (c.run P build args) w () w' →
      Settled c X g response w w' := by
    intro w' h
    rw [BindingCommand.run_eq] at h
    obtain ⟨a, w₁, hr, h⟩ := h.of_bind
    exact Cmd.wp_reaches h (hsettle a w₁ hr)
  exact ⟨fun hc w' h => (hreturns w' h).names hc, fun hc w' h => (hpasses w' h).keeps hc,
    fun w' h => (hpasses w' h).opens, fun ho => ⟨fun w' h => (hreturns w' h).accepted ho,
      fun w' h => (hpasses w' h).refuses ho⟩⟩

section

variable (hE : Faultless E)

include hE

/-- What does not fit the command is accepted. -/
theorem settle_works {a : Answered} {w₁ : World} (hl : Loaded P w₁.store a.deviceId)
    (hfits : ¬ c.Fits a w₁.store) :
    Works E (c.settle P a)
      (fun _ w' => (c = .stop ∨ c = .revoke) → w'.store.activeBinding = none) w₁ := by
  cases c with
  | stop | revoke =>
    rw [BindingCommand.settle, Works, Cmd.wp_bind, wp_record]
    exact ⟨trivial, works_remove hE fun _ => rfl⟩
  | pause =>
    obtain ⟨hc, -⟩ := Classical.not_imp.mp hfits
    obtain ⟨label, b, ht, hb, hv, hs⟩ := confirms_iff.mp hc
    rw [BindingCommand.settle, persistPausedBinding, Works, Cmd.wp_bind, wp_theStore, Cmd.wp_bind]
    cases he : w₁.store.loadActiveBinding a.deviceId with
    | error e => simp [BindingCommand.taskSpace, he, Except.toOption] at ht
    | ok existing =>
      have hlabel : existing.taskSpaceLabel = label := by
        simpa [BindingCommand.taskSpace, he, Except.toOption] using ht
      refine wp_lift_ok rfl ?_
      rw [hlabel, hb]
      show Works E _ _ _
      simp only [Works, Cmd.wp_ite, Cmd.wp_bind, wp_failText, wp_record]
      refine ⟨fun h => h (hs rfl), fun _ => ⟨trivial, works_saveActiveBinding hE hv ?_⟩⟩
      refine works_closeLocalAdmission hE fun r => ?_
      rintro (h | h) <;> cases h
  | resume =>
    obtain ⟨hc, -⟩ := Classical.not_imp.mp hfits
    obtain ⟨label, b, ht, hb, hv, -⟩ := confirms_iff.mp hc
    cases ht
    have hd : b.deviceId = a.deviceId := by
      rw [(activeBindingFromResponse_ok.mp hb).2.2.2.2.2]
    rw [BindingCommand.settle, persistActiveBinding, hb]
    refine wp_liftFailure_bind (fun _ h => (by cases h)) fun b' hb' => ?_
    cases hb'
    rw [if_pos (by decide), Cmd.wp_bind, wp_record]
    refine ⟨trivial, ?_⟩
    rw [openBinding, Cmd.wp_bind]
    refine works_saveActiveBinding hE hv ?_
    rw [Cmd.wp_bind, Cmd.wp_attempt]
    refine Cmd.wp_mono (fun _ h => h) (fun _ _ h => h.elim) (fun _ _ h => h)
      (works_openLocalAdmission hE hv (hd ▸ hl) fun r => ?_)
    rintro (h | h) <;> cases h

end

/-- A command that respects the bindings of others gets only answers that fit. -/
theorem fits_of_respects {build : Build} {args : List String} (hn : Named args X g)
    (h : ∀ E, Answering E c X response → Respects P E c build args X g response w)
    (hans : Answering E c X response) {a : Answered} {w₁ : World}
    (hr : Cmd.Returns E (c.request P build args) w a w₁) : c.Fits a w₁.store := by
  by_contra hfits
  obtain ⟨hw₁, rfl, rfl, rfl, hl⟩ := Cmd.wp_returns hr (wp_request hn hans)
  obtain ⟨_, w₂, hs, hnone⟩ := Cmd.exists_returns calm_answers (settle_works calm_faultless hl hfits)
  -- The surroundings of the run, which from the answer on may also be without faults.
  have hrun : Cmd.Returns (fun s q a => E s q a ∨ calm s q a) (c.run P build args) w () w₂ := by
    rw [BindingCommand.run_eq]
    exact Cmd.Returns.bind (hr.mono fun _ _ _ => .inl) (hs.mono fun _ _ _ => .inr)
  have hrespects := h (fun s q a => E s q a ∨ calm s q a) (by
    intro s request x body hp hx hb
    rcases hx with hx | hx
    · exact hans s request x body hp hx hb
    · cases hx
      cases hb)
  have hother : ¬ NamesOther a.bindingId a.generation a.response :=
    fun ho => (hrespects.refuses ho).1 w₂ hrun
  cases c with
  | pause | resume => exact (Classical.not_imp.mp hfits).2 hother
  | stop | revoke =>
    refine hfits ⟨hother, fun b hb => ?_⟩
    by_contra hne
    have hkept := hrespects.keeps (by decide) w₂ ⟨_, hrun⟩ b (hw₁.activeBinding.symm.trans hb) hne
    rw [hnone (by decide)] at hkept
    cases hkept

/-- A lifecycle command affects the binding it names and no other exactly where every answer it
gets fits: a pause or a resume is confirmed for the binding it names and for its generation, or
refused for another reason; a stop or a revoke is answered for its binding, and the handoff there
is is that binding's. -/
theorem lifecycle_frame_iff (P : Platform) (c : BindingCommand) (build : Build)
    (args : List String) (X : String) (g : UInt64) (response : Json) (w : World)
    (hn : Named args X g) :
    (∀ E, Answering E c X response → Respects P E c build args X g response w) ↔
      ∀ E a w₁, Answering E c X response → Cmd.Returns E (c.request P build args) w a w₁ →
        c.Fits a w₁.store :=
  ⟨fun h _ _ _ hans hr => fits_of_respects hn h hans hr,
    fun h E hans => respects_of_fits hn hans fun a w₁ hr => h E a w₁ hans hr⟩

end

/-! ## A stop that removes the handoff of another -/

def stopArgs : List String := ["binding-1", "--binding-generation", "1"]

def stopReply : Json :=
  .obj [("data", .obj [("id", .str "binding-1"), ("binding_generation", ofU64 1),
    ("status", .str "stopped")])]

/-- An enrolled device with the handoff of another binding. -/
def otherWorld : World where
  store := { Store.empty with
    credential := some sampleCredential
    key := some (encodeIdentity sampleIdentity)
    activeBinding := some (sampleBinding "binding-2") }
  log := []

theorem stopArgs_generation :
    bindingGeneration stopArgs = .ok (some "1") ∧ parseGeneration "1" = .ok 1 := by
  decide

theorem stopArgs_named : Named stopArgs "binding-1" 1 := ⟨rfl, "1", stopArgs_generation⟩

theorem works_stop_request {reply : Request → Json} {build : Build} {args : List String}
    {text host X : String} {g : UInt64} {c : CommunityCredential} {w : World}
    (hw : Enrolled P w.store c host) (hX : args.head? = some X)
    (htext : bindingGeneration args = .ok (some text)) (hg : parseGeneration text = .ok g)
    (hid : isApiId X = true) (hg0 : g ≠ 0) :
    Works (served reply) (BindingCommand.stop.request P build args) (fun _ _ => True) w := by
  rw [Works, BindingCommand.request, Cmd.wp_bind]
  refine works_bindingClient hw hX htext hg fun i hready => ?_
  rw [Cmd.wp_bind]
  refine works_closeLocalAdmission (served_faultless reply) fun r => ?_
  rw [Cmd.wp_bind]
  exact works_bindingRequest hready hid hg0 (by decide) fun _ _ _ _ => trivial

theorem stop_answered : ∃ a w₁, Cmd.Returns (served fun _ => stopReply)
    (BindingCommand.stop.request samplePlatform sampleBuild stopArgs) otherWorld a w₁ := by
  have hw : Enrolled samplePlatform otherWorld.store sampleCredential "control.example.test" :=
    enrolled_sample rfl rfl
  have hid : isApiId "binding-1" = true := rfl
  obtain ⟨a, w₁, hr, -⟩ := Cmd.exists_returns (served_answers _)
    (works_stop_request samplePlatform hw rfl stopArgs_generation.1 stopArgs_generation.2 hid
      (by decide))
  exact ⟨a, w₁, hr⟩

theorem served_answering {c : BindingCommand} {X : String} (response : Json)
    (hc : c.path X ≠ challengesPath) : Answering (served fun _ => response) c X response := by
  intro w request x body hp hx hb
  cases hx
  cases hb
  rw [serverReply, if_neg (hp ▸ hc)]

theorem stop_removes_other : ¬ ∀ E, Answering E .stop "binding-1" stopReply →
    Respects samplePlatform E .stop sampleBuild stopArgs "binding-1" 1 stopReply otherWorld := by
  intro h
  obtain ⟨a, w₁, hr⟩ := stop_answered
  have hans : Answering (served fun _ => stopReply) .stop "binding-1" stopReply :=
    served_answering stopReply (by decide)
  obtain ⟨hw₁, hX, -⟩ := Cmd.wp_returns hr (wp_request stopArgs_named hans)
  have hfits := fits_of_respects stopArgs_named h hans hr
  have hb := hfits.2 (sampleBinding "binding-2") hw₁.activeBinding
  rw [hX] at hb
  exact absurd hb (by decide)

/-- The same device with the handoff of the binding that is stopped. -/
def ownWorld : World where
  store := { otherWorld.store with activeBinding := some (sampleBinding "binding-1") }
  log := []

theorem stopReply_own : ¬ NamesOther "binding-1" 1 stopReply := by
  have hid : responseId stopReply = some "binding-1" := by decide
  have hgeneration : responseGeneration stopReply = some 1 := rfl
  rintro (⟨id, h, hne⟩ | ⟨n, h, hlt⟩)
  · rw [hid] at h
    cases h
    exact hne rfl
  · rw [hgeneration] at h
    cases h
    exact UInt64.lt_irrefl 1 hlt

/-- There the stop keeps to its own binding. -/
theorem lifecycle_frame_own : Respects samplePlatform (served fun _ => stopReply) .stop sampleBuild
    stopArgs "binding-1" 1 stopReply ownWorld := by
  refine (lifecycle_frame_iff samplePlatform .stop sampleBuild stopArgs "binding-1" 1 stopReply
    ownWorld stopArgs_named).mpr ?_ _ (served_answering stopReply (by decide))
  intro E a w₁ hans hr
  obtain ⟨hw₁, hX, hg, hres, -⟩ := Cmd.wp_returns hr (wp_request stopArgs_named hans)
  refine ⟨?_, fun b hb => ?_⟩
  · rw [hX, hg, hres]
    exact stopReply_own
  · rw [hw₁.activeBinding] at hb
    cases hb
    exact hX.symm

end Device
end EgoBridge
