import EgoBridge.Device.Store

/-!
# Device.Policy

The arguments of a command, the probes of the machine, and the owner's local policy.

* `option`, `positionalPaths`   — the command line.
* `probeRuntime`, `signerCertificateSha256ForProfile` — the release evidence.
* `LocalPolicy.verify`          — the policy against the machine's directories and bundles.
* `commitPolicyUpdate`          — the compare-and-swap of the policy document.
-/

namespace EgoBridge
namespace Device

open Protocol Json Crash

/-! ## Arguments -/

def isOptionText (text : String) : Bool := text.toList.head? = some '-'

def optionFrom (name : String) : List String → Option String → Except String (Option String)
  | [], result => .ok result
  | value :: rest, result =>
    if value ≠ name then optionFrom name rest result
    else if result.isSome then .error (name ++ " may only be supplied once")
    else
      match rest.head?.filter (fun candidate => !isOptionText candidate) with
      | none => .error (name ++ " requires a value")
      | some candidate => optionFrom name rest (some candidate)

def option (args : List String) (name : String) : Except String (Option String) :=
  optionFrom name args none

def hasOption (args : List String) (name : String) : Bool := args.contains name

def positionalPaths (valuedOptions : List String) : List String → Except String (List String)
  | [] => .ok []
  | value :: rest =>
    if valuedOptions.contains value then
      match rest with
      | [] => .error (value ++ " requires a value")
      | _ :: rest => positionalPaths valuedOptions rest
    else if value = "--confirm" then positionalPaths valuedOptions rest
    else if isOptionText value then .error ("unknown option: " ++ value)
    else (positionalPaths valuedOptions rest).map (value :: ·)

/-- `trim_end_matches` of carriage returns and line feeds. -/
def trimLineEnds (text : String) : String :=
  String.ofList ((text.toList.reverse.dropWhile fun c => c = '\r' || c = '\n').reverse)

def normalizeStdinToken (raw : String) : Except String String :=
  let token := trimLineEnds raw
  if token.isEmpty then .error "registration token from stdin is empty"
  else if TOKEN_MAX_BYTES < (utf8 token).length then
    .error "registration token from stdin is too long"
  else .ok token

/-- Read a registration credential without putting it in the process argument list. -/
def tokenFromArgs (args : List String) : Probe String := do
  let inline ← liftText (option args "--token")
  let stdinCount := args.count "--token-stdin"
  if 1 < stdinCount then failText "--token-stdin may only be supplied once"
  if inline.isSome ∧ stdinCount ≠ 0 then
    failText "--token and --token-stdin are mutually exclusive"
  match inline with
  | some token => pure token
  | none =>
    if stdinCount = 0 then failText "--token or --token-stdin is required"
    match (← ask .stdin : Option String) with
    | none => failText "failed to read registration token from stdin"
    | some raw => liftText (normalizeStdinToken raw)

def tokenFromArgsIfPresent (args : List String) : Probe (Option String) := do
  if hasOption args "--token" ∨ hasOption args "--token-stdin" then
    pure (some (← tokenFromArgs args))
  else pure none

/-! ## Probes -/

/-- `Option::or_else`. -/
def orElse {α : Type} (value : Option α) (other : Probe (Option α)) : Probe (Option α) :=
  match value with
  | some a => pure (some a)
  | none => other

def env (name : String) : Probe (Option String) := ask (.env name)

def orCompatibilityMismatch {α : Type} (p : Probe α) : Probe α := do
  match ← p.attempt with
  | .ok a => pure a
  | .error _ => fail .compatibilityMismatch

/-- The versions are those the runnable candidates report, in their order. -/
def probeRuntime (build : Build) : Probe String := do
  let versions : List String ← ask .runtimes
  if versions.contains build.supportedLocalRuntimeVersion then
    pure build.supportedLocalRuntimeVersion
  else if versions.isEmpty then failText "ego-browser runtime is unavailable"
  else failText "EGO_BROWSER_VERSION_MISMATCH: unsupported local ego-browser runtime"

def validateDigest (value : String) : Except String String :=
  let digest := toAsciiLowercase value
  if (utf8 digest).length ≠ 64 ∨ ¬ (utf8 digest).all isAsciiHexdigit then
    .error "signer certificate SHA-256 is invalid"
  else .ok digest

def discoverReleaseManifest (args : List String) : Probe (Option ReleaseManifestEvidence) := do
  let path ← orElse (← liftText (option args "--release-manifest")) do
    orElse (← env "EGO_BROWSER_RELEASE_MANIFEST") do
      orElse (← env "AGENT_REMOTE_RELEASE_MANIFEST") (env "EGO_BROWSER_SIGNING_EVIDENCE")
  match path with
  | none => pure none
  | some path =>
    match (← ask (.releaseArtifact path) : Option ReleaseManifestEvidence) with
    | none => failText "release evidence is invalid"
    | some evidence => pure (some evidence)

def discoverInstalledCertificatePin : Probe (Option String) := do
  match (← ask .installedPin : Option (Option String)) with
  | none => failText "trusted certificate pin is unsafe"
  | some pin => pure pin

def discoverSignedBinaryDigest : Probe (Option String) := do
  match (← ask .signedBinary : Option (Option String)) with
  | none => failText "codesign is unavailable"
  | some digest => pure digest

def signerCertificateSha256ForProfile (build : Build) (args : List String)
    (retainedProfile : Option String) : Probe String := do
  let explicitProfile ← orElse (← liftText (option args "--release-profile")) do
    orElse (← env "EGO_BROWSER_RELEASE_PROFILE") (pure retainedProfile)
  let manifest ← discoverReleaseManifest args
  let profile :=
    (explicitProfile <|> manifest.map (·.profile)).getD COMMUNITY_PROFILE_ID
  if profile = "logic-test" ∨ profile = "development-local" then
    let digest ← orElse (← liftText (option args "--signer-certificate-sha256")) do
      orElse (← env "EGO_BROWSER_SIGNER_CERTIFICATE_SHA256")
        (pure (manifest.map (·.signerCertificateSha256)))
    let digest := toAsciiLowercase (digest.getD "development")
    if digest = "development" then pure digest
    else liftText (validateDigest digest)
  else do
    if profile ≠ COMMUNITY_PROFILE_ID then
      failText ("unsupported ego-browser release profile: " ++ profile)
    let installedPin ← discoverInstalledCertificatePin
    let digest ← orElse (← liftText (option args "--signer-certificate-sha256")) do
      orElse installedPin do
        orElse (← env "EGO_BROWSER_SIGNER_CERTIFICATE_SHA256") do
          orElse (manifest.map (·.signerCertificateSha256)) do
            match ← discoverSignedBinaryDigest.attempt with
            | .ok digest => pure digest
            | .error _ => pure none
    match digest with
    | none =>
      failText "signer certificate SHA-256 is unavailable from the verified release profile"
    | some digest => do
      let digest ← liftText (validateDigest (toAsciiLowercase digest))
      if digest ≠ TRUSTED_COMMUNITY_SIGNER_CERTIFICATE_SHA256 then
        failText "signer certificate SHA-256 does not match the built-in community trust pin"
      if build.macos then
        match ← discoverSignedBinaryDigest with
        | none => failText "signed ego-browser binary certificate is unavailable"
        | some observed =>
          if observed ≠ digest then
            failText "signed ego-browser binary certificate does not match the trusted pin"
      pure digest

/-! ## Policies -/

/-- A local policy update prepared against an exact prior document. -/
structure PreparedPolicyUpdate where
  previous : LocalPolicy
  next : LocalPolicy
  deriving DecidableEq

def isAbsolute (path : String) : Bool := path.toList.head? = some '/'

namespace LocalPolicy

def verifyAllowlist (p : LocalPolicy) : Probe (Option (List String)) := do
  if p.allowlistRoots = [] then
    if p.allowlistRootsDigest.isSome then fail .policyInvalid
    pure none
  else
    match (← ask (.allowlist p.allowlistRoots) : Option (List String × String)) with
    | none => fail .policyInvalid
    | some (roots, digest) =>
      if roots ≠ p.allowlistRoots ∨ p.allowlistRootsDigest ≠ some digest then fail .policyInvalid
      pure (some roots)

def verifyLearningBundle (p : LocalPolicy) (expectedSkillVersion expectedRuntimeVersion :
    Option String) : Probe (Option VerifiedLearningBundle) := do
  match p.learningBundleRoot with
  | none => pure none
  | some root =>
    if ¬ isAbsolute root then fail .policyInvalid
    match (← ask (.learningBundle root) : Option VerifiedLearningBundle) with
    | none => fail .learningBundleInvalid
    | some verified =>
      if expectedSkillVersion.any (· ≠ verified.skillVersion) ∨
          expectedRuntimeVersion.any (· ≠ verified.localEgoBrowserRuntimeVersion) then
        fail .learningBundleInvalid
      pure (some verified)

/-- Verify all local paths and the optional release-signed learning bundle. -/
def verify (p : LocalPolicy) (expectedSkillVersion expectedRuntimeVersion : Option String) :
    Probe VerifiedLocalPolicy := do
  if p.version ≠ 1 ∨ p.policyRevision = 0 ∨ p.allowlistRevision = 0 ∨
      MAX_ALLOWLIST_ROOTS < p.allowlistRoots.length then
    fail .policyInvalid
  let allowlist ← p.verifyAllowlist
  let learningBundle ← p.verifyLearningBundle expectedSkillVersion expectedRuntimeVersion
  pure ⟨p.policyRevision, p.allowlistRevision, p.allowlistRootsDigest, allowlist, learningBundle⟩

def withAllowlistRoots (p : LocalPolicy) (roots : List String) : Probe LocalPolicy := do
  if roots = [] ∨ MAX_ALLOWLIST_ROOTS < roots.length then fail .policyInvalid
  match checkedSucc p.allowlistRevision with
  | none => fail .policyInvalid
  | some allowlistRevision =>
    match (← ask (.allowlist roots) : Option (List String × String)) with
    | none => fail .policyInvalid
    | some (roots, digest) =>
      match checkedSucc p.policyRevision with
      | none => fail .policyInvalid
      | some policyRevision =>
        pure ⟨1, policyRevision, allowlistRevision, roots, some digest, p.learningBundleRoot⟩

def withLearningBundleRoot (p : LocalPolicy) (root : String) : Probe LocalPolicy := do
  match (← ask (.canonicalize root) : Option String) with
  | none => fail .learningBundleInvalid
  | some canonical =>
    match checkedSucc p.policyRevision with
    | none => fail .policyInvalid
    | some policyRevision =>
      pure { p with policyRevision, learningBundleRoot := some canonical }

end LocalPolicy

/-- Load and strictly verify the owner-only local policy. -/
def loadPolicy (expectedSkillVersion expectedRuntimeVersion : Option String) :
    Probe (LocalPolicy × VerifiedLocalPolicy) := do
  let policy ← lift (← theStore).loadPolicyDocument
  pure (policy, ← policy.verify expectedSkillVersion expectedRuntimeVersion)

def mapLocalPolicyError {α : Type} (p : Probe α) : Probe α := do
  match ← p.attempt with
  | .ok a => pure a
  | .error (.credential .policyInvalid) => fail .compatibilityMismatch
  | .error (.credential .learningBundleInvalid) => fail .compatibilityMismatch
  | .error (.credential .unsupportedCredentialProfile) => fail .compatibilityMismatch
  | .error e => raise e

def loadVerifiedPolicy (build : Build) : Probe (LocalPolicy × VerifiedLocalPolicy) := do
  let runtime ← orCompatibilityMismatch (probeRuntime build)
  mapLocalPolicyError (loadPolicy (some build.supportedSkillVersion) (some runtime))

/-! ## Policy updates -/

/-- Start one fail-fast cross-process policy update transaction. -/
def beginPolicyUpdate : Probe Unit := do
  match (← ask .policyLock : Option LockFault) with
  | none => pure ()
  | some .busy => fail .policyConflict
  | some (.file fault) => fail fault.error

def prepareAllowlistUpdate (roots : List String) : Probe PreparedPolicyUpdate := do
  let previous ← lift (← theStore).loadPolicyDocument
  let _ ← previous.verify none none
  let next ← previous.withAllowlistRoots roots
  let _ ← next.verify none none
  pure ⟨previous, next⟩

def prepareLearningBundleUpdate (root : String) : Probe PreparedPolicyUpdate := do
  let previous ← lift (← theStore).loadPolicyDocument
  let _ ← previous.verify none none
  let next ← previous.withLearningBundleRoot root
  let _ ← next.verify none none
  pure ⟨previous, next⟩

/-- The named components of a path. -/
def components (path : String) : List String :=
  ((path.toList.splitOn '/').map String.ofList).filter fun part => part ≠ "" && part ≠ "."

def isStableReleaseVersion (value : String) : Bool :=
  let parts := value.toList.splitOn '.'
  parts.length = 3 &&
    parts.all fun part =>
      part ≠ [] && part.all Char.isDigit && (part.length = 1 || part.head? ≠ some '0')

/-- `installed_release_directory`: the release directory a `releases/<version>/bin` belongs to. -/
def installedReleaseDirectory (build : Build) (executable : String) : Probe (Option String) := do
  match (← ask (.canonicalize executable) : Option String) with
  | none => pure none
  | some executable =>
    match (components executable).reverse with
    | _ :: bin :: release :: releases :: parents =>
      if bin ≠ "bin" ∨ releases ≠ "releases" ∨ release ≠ build.packageVersion then pure none
      else pure (some ("/" ++ "/".intercalate (parents.reverse ++ [releases, release])))
    | _ => pure none

def prepareManagedLearningBundleUpdate (build : Build) (currentRelease : String)
    (expectedRuntimeVersion : String) :
    Probe (VerifiedLocalPolicy × Option PreparedPolicyUpdate) := do
  let skill := some build.supportedSkillVersion
  let previous ← lift (← theStore).loadPolicyDocument
  match ← (previous.verify skill (some expectedRuntimeVersion)).attempt with
  | .ok verified => pure (verified, none)
  | .error (.credential .learningBundleInvalid) => do
    let _ ← { previous with learningBundleRoot := none }.verify none none
    match (← ask (.canonicalize currentRelease) : Option String) with
    | none => fail .learningBundleInvalid
    | some canonical =>
      if components canonical ≠ components currentRelease ∨
          (components canonical).getLast? ≠ some build.packageVersion then
        fail .learningBundleInvalid
      let releases := (components canonical).dropLast
      if releases.getLast? ≠ some "releases" then fail .learningBundleInvalid
      match previous.learningBundleRoot with
      | none => fail .learningBundleInvalid
      | some previousRoot =>
        let previousRelease := (components previousRoot).dropLast
        if (components previousRoot).getLast? ≠ some "learning-bundle" ∨
            previousRelease.dropLast ≠ releases ∨ previousRelease = components canonical ∨
            ¬ previousRelease.getLast?.any isStableReleaseVersion then
          fail .learningBundleInvalid
        match (← ask (.canonicalize previousRoot) : Option String) with
        | none => fail .learningBundleInvalid
        | some canonicalRoot =>
          if components canonicalRoot ≠ components previousRoot then fail .learningBundleInvalid
          let next ← previous.withLearningBundleRoot (canonical ++ "/learning-bundle")
          let verified ← next.verify skill (some expectedRuntimeVersion)
          pure (verified, some ⟨previous, next⟩)
  | .error e => raise e

/-- Commit the exact policy document prepared by a transaction. -/
def commitPolicyUpdate (update : PreparedPolicyUpdate) : Command Unit := do
  let current ← lift (← theStore).loadPolicyDocument
  if current ≠ update.previous then fail .policyConflict
  match checkedSucc current.policyRevision with
  | none => fail .policyInvalid
  | some revision =>
    if update.next.policyRevision ≠ revision then fail .policyConflict
    let _ ← update.next.verify none none
    atomicOwnerWrite fun w =>
      (w.logged (.replacedPolicy update.next)).stored { w.store with policy := some update.next }

/-! ## Rules -/

section

variable {E : Surroundings} {I : World → Prop} {F : Failure → World → Prop} {α : Type} {w : World}
  {p : Probe α} {R : α → World → Prop}

theorem wp_orCompatibilityMismatch (hI : I w) (hF : ∀ e, F e w)
    (hR : ∀ a, Cmd.Returns E p.1 w a w → R a w) :
    Cmd.wp E I F (liftM (orCompatibilityMismatch p)) R w := by
  rw [orCompatibilityMismatch, probe_bind, Cmd.wp_bind]
  rw [probe_attempt, Cmd.wp_attempt]
  exact Probe.wp p hI (fun _ _ => hF _) fun a ha => hR a ha

theorem wp_mapLocalPolicyError (hI : I w) (hF : ∀ e, F e w)
    (hR : ∀ a, Cmd.Returns E p.1 w a w → R a w) :
    Cmd.wp E I F (liftM (mapLocalPolicyError p)) R w := by
  rw [mapLocalPolicyError, probe_bind, Cmd.wp_bind]
  rw [probe_attempt, Cmd.wp_attempt]
  refine Probe.wp p hI (fun e _ => ?_) fun a ha => hR a ha
  split
  · cases ‹Except.error e = .ok _›
  all_goals exact hF _

end

end Device
end EgoBridge
