import EgoBridge.Device.Registration

/-!
# Device.Commands

The commands of the device client besides enrollment: bindings, policy changes, removal.

A server confirmation is logged where the command has accepted it.

* `persistActiveBinding` — the handoff is stored before admission is opened.
* `DeviceCommand.run`    — every command that writes to the store.
-/

namespace EgoBridge
namespace Device

open Protocol Json Crash

variable (P : Platform)

/-! ## Bindings -/

def explicitOrLegacyU64 (data : Json) (explicit legacy : String) : Option UInt64 :=
  match (get data explicit).bind asU64, (get data legacy).bind asU64 with
  | some left, some right => if left ≠ right then none else some left
  | some value, none => some value
  | none, value => value

/-- The `data` of a response. -/
def responseData (response : Json) : Json := (get response "data").getD .null

def responseStatus (response : Json) : Option String :=
  (get (responseData response) "status").bind asStr

def activeBindingFromResponse (deviceId expectedTaskSpace : String) (response : Json) :
    Except Failure ActiveBinding := do
  let data := responseData response
  let bindingId ← present ((get data "id").bind asStr) "binding response did not include an ID"
  let generation ← present (explicitOrLegacyU64 data "binding_generation" "generation")
    "binding response did not include a binding generation"
  let authorizationMode ← present ((get data "authorization_mode").bind asStr)
    "binding response did not include its authorization mode"
  let taskSpaceLabel ← present ((get data "task_space_label").bind asStr)
    "binding response did not include its Task Space label"
  if taskSpaceLabel ≠ expectedTaskSpace then
    .error (.message "binding response did not match the selected tool session")
  else if (get data "ego_browser_device_id").bind asStr ≠ some deviceId then
    .error (.message "binding response did not match the local device identity")
  else .ok ⟨1, bindingId, generation, deviceId, taskSpaceLabel, authorizationMode, true⟩

def liftFailure {α : Type} : Except Failure α → Probe α := Probe.ofExcept

/-- Stores the confirmed binding and opens admission for it. -/
def openBinding (binding : ActiveBinding) : Command Unit := do
  saveActiveBinding binding
  -- Open admission only after the handoff is durable.
  match ← (openLocalAdmission P binding).attempt with
  | .ok () => pure ()
  | .error e => do
    let _ ← clearActiveBinding.attempt
    let _ ← (closeLocalAdmission P).attempt
    raise e

/-- `persist_active_binding`, with the command whose confirmation it is. -/
def persistActiveBinding (command : Lifecycle) (deviceId expectedTaskSpace : String)
    (response : Json) : Command Unit := do
  let binding ← liftFailure (activeBindingFromResponse deviceId expectedTaskSpace response)
  if command ≠ .confirmAllowlist then
    record (.confirmed ⟨command, binding.bindingId, responseStatus response, none⟩)
  openBinding P binding

def persistPausedBinding (deviceId : String) (response : Json) : Command Unit := do
  let existing ← lift ((← theStore).loadActiveBinding deviceId)
  let binding ← liftFailure (activeBindingFromResponse deviceId existing.taskSpaceLabel response)
  if responseStatus response ≠ some "paused" then
    failText "pause response did not confirm paused status"
  record (.confirmed ⟨.pause, binding.bindingId, responseStatus response, none⟩)
  saveActiveBinding binding
  closeLocalAdmission P

def loadIdentityOf (credential : CommunityCredential) : Probe DeviceIdentity :=
  loadIdentity credential.deviceId credential.releaseProfile credential.credentialProfile

def claim (build : Build) (args : List String) : Command Unit := do
  match args.head? with
  | none => failText "tool session ID is required"
  | some session =>
    if ¬ hasOption args "--confirm" then
      failText "explicit --confirm is required for full-trust binding"
    let taskSpaceLabel := "agent-remote:" ++ session
    let nowUnix ← now
    let credential ← lift ((← theStore).load P nowUnix)
    let (_, policy) ← loadVerifiedPolicy build
    let identity ← loadIdentityOf credential
    let client ← lift (withIdentity P credential identity)
    let result ← client.claim P
      [("tool_session_id", .str session), ("ego_browser_device_id", .str credential.deviceId),
        ("authorization_mode", .str "ego_browser_script_full_trust"),
        ("authorization_policy_version", ofU64 1),
        ("release_profile", .str identity.releaseProfile),
        ("credential_profile", .str identity.credentialProfile),
        ("remote_platform", .str "linux"), ("local_platform", .str "macos"),
        ("device_capabilities", strs policy.capabilities),
        ("allowlist_revision", ofU64 policy.allowlistRevision),
        ("learning_bundle_digest", optStr policy.learningBundleDigest),
        ("task_space_label", .str taskSpaceLabel), ("user_confirmation", .bool true)]
    persistActiveBinding P .claim credential.deviceId taskSpaceLabel result

/-- The generation of a lifecycle command, under either of its names. -/
def bindingGeneration (args : List String) : Except String (Option String) := do
  let explicit ← option args "--binding-generation"
  let legacy ← option args "--generation"
  match explicit, legacy with
  | some explicit, some legacy =>
    if explicit ≠ legacy then .error "--binding-generation and --generation disagree"
    else .ok (some explicit)
  | explicit, legacy => .ok (explicit <|> legacy)

def parseGeneration (text : String) : Except String UInt64 :=
  match parseU64 text with
  | none => .error "invalid digit found in string"
  | some generation => .ok generation

/-- What the lifecycle commands share: the binding, its generation, the client. -/
structure BindingClient where
  bindingId : String
  generation : UInt64
  credential : CommunityCredential
  client : DeviceApiClient

def bindingClient (args : List String) : Probe BindingClient := do
  match args.head? with
  | none => failText "binding ID is required"
  | some bindingId =>
    match ← liftText (bindingGeneration args) with
    | none => failText "--binding-generation is required"
    | some text =>
      let generation ← liftText (parseGeneration text)
      let nowUnix ← now
      let credential ← lift ((← theStore).load P nowUnix)
      let identity ← loadIdentityOf credential
      let client ← lift (withIdentity P credential identity)
      pure ⟨bindingId, generation, credential, client⟩

def pause (args : List String) : Command Unit := do
  let b ← bindingClient P args
  -- Direct callers must also close execution before reducing privilege.
  closeLocalAdmission P
  let result ← b.client.pause P b.bindingId b.generation
  persistPausedBinding P b.credential.deviceId result

def stop (args : List String) : Command Unit := do
  let b ← bindingClient P args
  closeLocalAdmission P
  let result ← b.client.stop P b.bindingId b.generation
  record (.confirmed ⟨.stop, b.bindingId, responseStatus result, none⟩)
  clearActiveBinding

def revoke (args : List String) : Command Unit := do
  let b ← bindingClient P args
  closeLocalAdmission P
  let result ← b.client.revoke P b.bindingId b.generation
  record (.confirmed ⟨.revoke, b.bindingId, responseStatus result, none⟩)
  clearActiveBinding

def resume (build : Build) (args : List String) : Command Unit := do
  let b ← bindingClient P args
  let handoff ← lift ((← theStore).loadActiveBinding b.credential.deviceId)
  if ¬ hasOption args "--confirm" then
    failText "explicit --confirm is required to resume full-trust control"
  let (_, policy) ← loadVerifiedPolicy build
  let result ← b.client.resume P b.bindingId b.generation policy.allowlistRevision
    policy.learningBundleDigest
  persistActiveBinding P .resume b.credential.deviceId handoff.taskSpaceLabel result

/-! ## Policy changes -/

/-- `confirmed_allowlist_generation`: the confirmation is of the submitted policy. -/
def confirmedAllowlistGeneration (response : Json) (bindingId deviceId : String)
    (generation : UInt64) (policy : VerifiedLocalPolicy) (expectedTaskSpace : Option String) :
    Except Failure UInt64 := do
  let data ← present ((get response "data").bind asObject)
    "allowlist confirmation did not include binding data"
  let nextGeneration ← present (checkedSucc generation)
    "allowlist confirmation generation is exhausted"
  let taskSpace ← present ((get data "task_space_label").bind asStr)
    "allowlist confirmation did not include a Task Space label"
  if (get data "id").bind asStr = some bindingId ∧
      (get data "ego_browser_device_id").bind asStr = some deviceId ∧
      (get data "generation").bind asU64 = some nextGeneration ∧
      (get data "status").bind asStr = some "paused" ∧
      (get data "stop_reason").bind asStr = some "allowlist_changed" ∧
      (get data "authorization_mode").bind asStr = some "ego_browser_script_full_trust" ∧
      (get data "allowlist_revision").bind asU64 = some policy.allowlistRevision ∧
      get data "allowlist_roots_digest" = some (optStr policy.allowlistRootsDigest) ∧
      get data "learning_bundle_digest" = some (optStr policy.learningBundleDigest) ∧
      stringArrayMembersMatch (get data "capabilities") (some (strs policy.capabilities)) ∧
      expectedTaskSpace.all (taskSpace = ·) then
    .ok nextGeneration
  else .error (.message "allowlist confirmation did not match the submitted policy")

/-- The policy change of one binding. -/
def confirmBindingAllowlist (bindingId : String) (generation : Option String)
    (update : PreparedPolicyUpdate) (verified : VerifiedLocalPolicy) : Command Unit := do
  match generation with
  | none => failText "--binding-generation is required with --binding"
  | some text =>
    let generation ← liftText (parseGeneration text)
    let nowUnix ← now
    let credential ← lift ((← theStore).load P nowUnix)
    let identity ← loadIdentityOf credential
    let active ← lift (ifPresent ((← theStore).loadActiveBinding credential.deviceId))
    if active.any (fun b => b.bindingId ≠ bindingId || b.generation ≠ generation) then
      failText "the requested binding does not match the active local handoff"
    let client ← lift (withIdentity P credential identity)
    if verified.allowlistRevision = 0 then failText "allowlist revision is invalid"
    match verified.allowlistRootsDigest with
    | none => failText "allowlist digest is missing"
    | some digest =>
      let result ← client.confirmAllowlist P bindingId generation
        (verified.allowlistRevision - 1) digest
      let _ ← liftFailure (confirmedAllowlistGeneration result bindingId credential.deviceId
        generation verified (active.map (·.taskSpaceLabel)))
      record (.confirmed ⟨.confirmAllowlist, bindingId, responseStatus result, some verified⟩)
      clearActiveBinding
      commitPolicyUpdate update
      match active with
      | none => pure ()
      | some active =>
        persistActiveBinding P .confirmAllowlist credential.deviceId active.taskSpaceLabel result

/-- The policy change of the device as a whole. -/
def synchronizeAndCommit (build : Build) (args : List String) (runtime : String)
    (update : PreparedPolicyUpdate) (verified : VerifiedLocalPolicy) : Command Unit := do
  match ← synchronizeRegisteredPolicy P build args runtime verified with
  | none => commitPolicyUpdate update
  | some credential => do
    -- Registration pauses every live binding before returning.
    clearActiveBinding
    commitPolicyUpdate update
    save P credential

/-- `allowlist set`, with the arguments after `set`. -/
def allowlistSet (build : Build) (args : List String) : Command Unit := do
  if ¬ hasOption args "--confirm" then
    failText "explicit --confirm is required to replace the helper allowlist"
  let binding ← liftText (option args "--binding")
  let generation ← liftText (bindingGeneration args)
  if binding.isSome ∧
      (hasOption args "--token" ∨ hasOption args "--signer-certificate-sha256") then
    failText "--binding cannot be combined with policy registration credentials"
  if binding.isNone ∧ generation.isSome then
    failText "--binding-generation requires --binding"
  beginPolicyUpdate
  let runtime ← orCompatibilityMismatch (probeRuntime build)
  let _ ← mapLocalPolicyError (loadPolicy (some build.supportedSkillVersion) (some runtime))
  let roots ← liftText (positionalPaths
    ["--binding", "--binding-generation", "--generation", "--token",
      "--signer-certificate-sha256"] args)
  if roots = [] then failText "at least one allowlist root is required"
  let update ← prepareAllowlistUpdate roots
  let verified ← orCompatibilityMismatch
    (update.next.verify (some build.supportedSkillVersion) (some runtime))
  match binding with
  | some bindingId => confirmBindingAllowlist P bindingId generation update verified
  | none => synchronizeAndCommit P build args runtime update verified

/-- `learning set`, with the arguments after `set`. -/
def learningSet (build : Build) (args : List String) : Command Unit := do
  if ¬ hasOption args "--confirm" then
    failText "explicit --confirm is required to configure a learning bundle"
  match ← liftText (positionalPaths ["--token", "--signer-certificate-sha256"] args) with
  | [root] =>
    beginPolicyUpdate
    let update ← prepareLearningBundleUpdate root
    let runtime ← orCompatibilityMismatch (probeRuntime build)
    let verified ← orCompatibilityMismatch
      (update.next.verify (some build.supportedSkillVersion) (some runtime))
    synchronizeAndCommit P build args runtime update verified
    let (_, policy) ← loadVerifiedPolicy build
    if policy.learningBundle.isNone then failText "no signed learning bundle is configured"
  | _ => failText "exactly one learning bundle path is required"

/-! ## Removal -/

def deviceRevoke (args : List String) : Command Unit := do
  if args ≠ ["--confirm"] then failText "usage: ego-browser-device device-revoke --confirm"
  -- Close locally before the request so an outage cannot preserve execution.
  closeLocalAdmission P
  let nowUnix ← now
  let credential ← lift ((← theStore).load P nowUnix)
  let identity ← loadIdentityOf credential
  let client ← lift (withIdentity P credential identity)
  let result ← client.revokeDevice P
  match (get (responseData result) "id").bind asStr, responseStatus result with
  | none, _ => failText "device revoke response did not include an ID"
  | _, none => failText "device revoke response did not include a status"
  | some deviceId, some status =>
    if deviceId ≠ credential.deviceId ∨ status ≠ "revoked" then
      failText "device revoke response did not match the local device identity"
    clear P

def retireLocal (args : List String) : Command Unit := do
  if args ≠ ["--confirmed-stopped"] then
    failText "usage: ego-browser-device retire-local --confirmed-stopped"
  closeLocalAdmission P
  retireRuntimeState P

def purgeLocal (args : List String) : Command Unit := do
  if args ≠ ["--confirmed-revoked"] then
    failText "usage: ego-browser-device purge-local --confirmed-revoked"
  closeLocalAdmission P
  clear P

def metadata (args : List String) : Command Unit := do
  if args ≠ [] then failText "usage: ego-browser-device metadata"
  localMetadata P

/-! ## The commands -/

/-- The commands that write to the store, with their arguments. -/
inductive DeviceCommand where
  | ensure (args : List String)
  | deviceRotate (args : List String)
  | allowlistSet (args : List String)
  | learningSet (args : List String)
  | claim (args : List String)
  | resume (args : List String)
  | pause (args : List String)
  | stop (args : List String)
  | revoke (args : List String)
  | deviceRevoke (args : List String)
  | retireLocal (args : List String)
  | purgeLocal (args : List String)
  | metadata (args : List String)

/-- A command as one build of the client runs it. -/
structure Invocation where
  build : Build
  command : DeviceCommand

def Invocation.run (i : Invocation) : Command Unit :=
  match i.command with
  | .ensure args => Device.ensure P i.build args
  | .deviceRotate args => Device.deviceRotate P i.build args
  | .allowlistSet args => Device.allowlistSet P i.build args
  | .learningSet args => Device.learningSet P i.build args
  | .claim args => Device.claim P i.build args
  | .resume args => Device.resume P i.build args
  | .pause args => Device.pause P args
  | .stop args => Device.stop P args
  | .revoke args => Device.revoke P args
  | .deviceRevoke args => Device.deviceRevoke P args
  | .retireLocal args => Device.retireLocal P args
  | .purgeLocal args => Device.purgeLocal P args
  | .metadata args => Device.metadata P args

end Device
end EgoBridge
