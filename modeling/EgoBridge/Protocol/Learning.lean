import Mathlib.Data.List.Infix
import EgoBridge.Json.Pretty
import EgoBridge.Lib.Tree
import EgoBridge.Protocol.Crypto

/-!
# Protocol.Learning

Verifying a signed learning bundle: the manifest, every file it lists, and the tree it lies in.

The tree does not change while it is verified, so metadata that is read again is not modelled
again, and what a path leads to is the same in every pass. Signatures, SHA-256 and base64 are the
crates' own.

* `SignedManifest` — the manifest: small, strict, signed, and within its field rules.
* `SealedTree`     — the tree: the files listed and no others, read-only and owned, single links.
* `verify_iff`     — verification accepts exactly that, and gives the digest of what was signed.
-/

namespace EgoBridge
namespace Protocol

open Json Files

def MAX_MANIFEST_BYTES : Nat := 1024 * 1024
def MAX_BUNDLE_FILES : Nat := 4096
def MAX_BUNDLE_BYTES : Nat := 256 * 1024 * 1024

structure LearningFile where
  path : String
  sizeBytes : UInt64
  sha256 : String
  deriving DecidableEq

structure LearningBundleManifest where
  bundleVersion : String
  skillVersion : String
  localEgoBrowserRuntimeVersion : String
  protocolVersions : List String
  files : List LearningFile
  signingKeyId : String
  signature : String
  deriving DecidableEq

namespace LearningFile

def members (f : LearningFile) : List (String × Json) :=
  [("path", .str f.path), ("size_bytes", ofU64 f.sizeBytes), ("sha256", .str f.sha256)]

def toJson (f : LearningFile) : Json := .obj f.members

def names : List String := ["path", "size_bytes", "sha256"]

def ofJson (v : Json) : Option LearningFile := do
  let ms ← fields names v
  let path ← required ms "path" asString
  let sizeBytes ← required ms "size_bytes" asU64
  let sha256 ← required ms "sha256" asString
  some { path, sizeBytes, sha256 }

end LearningFile

namespace LearningBundleManifest

def members (m : LearningBundleManifest) : List (String × Json) :=
  [("bundle_version", .str m.bundleVersion), ("skill_version", .str m.skillVersion),
    ("local_ego_browser_runtime_version", .str m.localEgoBrowserRuntimeVersion),
    ("protocol_versions", .arr (m.protocolVersions.map .str)),
    ("files", .arr (m.files.map LearningFile.toJson)), ("signing_key_id", .str m.signingKeyId),
    ("signature", .str m.signature)]

def toJson (m : LearningBundleManifest) : Json := .obj m.members

def names : List String :=
  ["bundle_version", "skill_version", "local_ego_browser_runtime_version", "protocol_versions",
    "files", "signing_key_id", "signature"]

def ofJson (v : Json) : Option LearningBundleManifest := do
  let ms ← fields names v
  let bundleVersion ← required ms "bundle_version" asString
  let skillVersion ← required ms "skill_version" asString
  let localEgoBrowserRuntimeVersion ← required ms "local_ego_browser_runtime_version" asString
  let protocolVersions ← required ms "protocol_versions" (asList asString)
  let files ← required ms "files" (asList LearningFile.ofJson)
  let signingKeyId ← required ms "signing_key_id" asString
  let signature ← required ms "signature" asString
  some
    { bundleVersion, skillVersion, localEgoBrowserRuntimeVersion, protocolVersions, files,
      signingKeyId, signature }

/-- Canonical bytes covered by the Ed25519 signature. -/
def signedBytes (m : LearningBundleManifest) : Bytes :=
  canonicalJson (.obj (m.members.filter fun x => x.1 ≠ "signature"))

end LearningBundleManifest

/-- What the crates supply. -/
structure BundleCrypto where
  sha256 : Bytes → Bytes
  /-- Base64 with the standard alphabet. -/
  decode : String → Option Bytes
  /-- `VerifyingKey::from_bytes` gives a key. -/
  verifyingKey : Bytes → Bool
  verify : Bytes → Bytes → Bytes → Bool

/-- Where the message names a path, the path. -/
inductive LearningBundleError where
  | invalidRoot
  | invalidPath
  | malformedManifest
  | invalidSignature
  | versionMismatch
  | writableBundle
  | bundleTooLarge
  | duplicatePath (path : String)
  | unlistedPath (path : List Name)
  | fileMismatch (path : List Name)
  | io
  deriving DecidableEq

/-- The path given for a bundle, and what it leads to. -/
structure Root where
  path : Path
  /-- Some component is a symbolic link. -/
  symlinked : Bool
  /-- `canonicalize` gives the same path. -/
  canonical : Bool
  tree : Option Tree

structure VerifiedLearningBundle where
  root : Path
  digest : String
  bundleVersion : String
  skillVersion : String
  localEgoBrowserRuntimeVersion : String
  deriving DecidableEq

def manifestName : List Name := [.text "manifest.json"]

section Verify

variable (c : BundleCrypto)

def hexDigest (bytes : Bytes) : String :=
  String.ofList ((c.sha256 bytes).flatMap fun b => [hexDigit (b.toNat / 16), hexDigit (b.toNat % 16)])

def constantTimeEq (left right : Bytes) : Bool :=
  if left.length ≠ right.length then false
  else (left.zip right).foldl (fun acc p => acc ||| (p.1 ^^^ p.2)) 0 = 0

def requireReadOnly (m : Meta) : Except LearningBundleError Unit :=
  if m.writable then .error .writableBundle else .ok ()

def validateReadOnlyDirectory : Tree → Except LearningBundleError Unit
  | .directory m _ => do
    requireReadOnly m
    if m.owned then .ok () else .error .invalidPath
  | _ => .error .invalidPath

def validateReadOnlyFileMetadata (relative : List Name) : Tree → Except LearningBundleError Unit
  | .file m _ => do
    requireReadOnly m
    if m.owned ∧ m.links = 1 then .ok () else .error (.fileMismatch relative)
  | _ => .error (.fileMismatch relative)

/-- The names of a listed path, and whether it is written as a directory's. -/
def validateRelativePath (value : String) : Except LearningBundleError (List Name × Bool) :=
  let path := Path.ofText value
  if value = "" ∨ path.absolute then .error .invalidPath
  else
    match path.names? with
    | none => .error .invalidPath
    | some names => .ok (names, path.trailing)

/-- `symlink_metadata` of a path below the root that has no symbolic link on it. -/
def metadata (t : Tree) (names : List Name) (trailing : Bool) :
    Except LearningBundleError Tree :=
  match t.at? names with
  | none => .error .io
  | some s => if trailing ∧ s.isDirectory = false then .error .io else .ok s

def rejectSymlinkComponents (t : Tree) (names : List Name) : Except LearningBundleError Unit :=
  if names.inits.any fun p => (t.at? p).any Tree.isSymlink then .error .invalidPath else .ok ()

/-- The directories between the root and what a path names, from the root down. -/
def parents (names : List Name) : List (List Name) := names.dropLast.inits.tail

def requireReadOnlyParents (t : Tree) (names : List Name) : Except LearningBundleError Unit :=
  (parents names).forM fun p => do
    let s ← metadata t p false
    validateReadOnlyDirectory s

def readReadOnlyFile (t : Tree) (names : List Name) (trailing : Bool) (expectedMax : Nat) :
    Except LearningBundleError Bytes := do
  let s ← metadata t names trailing
  validateReadOnlyFileMetadata names s
  match s with
  | .file _ bytes =>
    if expectedMax < bytes.length then .error (.fileMismatch names) else .ok bytes
  | _ => .error (.fileMismatch names)

/-- What the loop over the listed files has seen. -/
structure Seen where
  paths : List (List Name)
  total : Nat
  digestInput : Bytes

def verifyFile (t : Tree) (s : Seen) (entry : LearningFile) : Except LearningBundleError Seen := do
  let (names, trailing) ← validateRelativePath entry.path
  if names ∈ s.paths then .error (.duplicatePath entry.path)
  else if 2 ^ 64 ≤ s.total + entry.sizeBytes.toNat then .error .bundleTooLarge
  else if MAX_BUNDLE_BYTES < s.total + entry.sizeBytes.toNat then .error .bundleTooLarge
  else do
    rejectSymlinkComponents t names
    requireReadOnlyParents t names
    let bytes ← readReadOnlyFile t names trailing entry.sizeBytes.toNat
    if bytes.length ≠ entry.sizeBytes.toNat then .error (.fileMismatch names)
    else if constantTimeEq (utf8 (hexDigest c bytes)) (utf8 entry.sha256) = false then
      .error (.fileMismatch names)
    else
      .ok
        { paths := names :: s.paths
          total := s.total + entry.sizeBytes.toNat
          digestInput := s.digestInput ++ utf8 entry.path ++ utf8 entry.sha256 ++
            toBeBytes entry.sizeBytes }

/-- What the directory worklist has seen. -/
structure Observed where
  files : List (List Name)
  directories : List (List Name)

def visitEntry (expected directories : List (List Name)) (s : Observed) (x : List Name × Tree) :
    Except LearningBundleError Observed :=
  match x.2 with
  | .symlink => .error .invalidPath
  | .directory _ _ => do
    validateReadOnlyDirectory x.2
    if x.1 ∉ directories then .error (.unlistedPath x.1)
    else if x.1 ∈ s.directories then .error .invalidPath
    else .ok { s with directories := x.1 :: s.directories }
  | _ => do
    validateReadOnlyFileMetadata x.1 x.2
    if x.1 = manifestName then .ok s
    else if x.1 ∉ expected then .error (.unlistedPath x.1)
    else .ok { s with files := x.1 :: s.files }

/-- `==` on sets. -/
def sameSet (a b : List (List Name)) : Bool := a.all (· ∈ b) && b.all (· ∈ a)

def verifyCompleteInventory (t : Tree) (expected : List (List Name)) :
    Except LearningBundleError Unit := do
  let directories := expected.flatMap parents
  let s ← Tree.walk .asRead (visitEntry expected directories) [([], t.entries)] ⟨[], []⟩
  if sameSet s.files expected ∧ sameSet s.directories directories then .ok ()
  else .error .invalidPath

/-- The second look at every file. -/
def verifySnapshot (t : Tree) (paths : List (List Name)) : Except LearningBundleError Unit := do
  validateReadOnlyDirectory t
  paths.forM fun names => do
    rejectSymlinkComponents t names
    requireReadOnlyParents t names
    let s ← metadata t names false
    validateReadOnlyFileMetadata names s

def readManifest (bytes : Bytes) : Except LearningBundleError LearningBundleManifest :=
  match parseStrictJson LearningBundleManifest.ofJson bytes with
  | .error _ => .error .malformedManifest
  | .ok m =>
    if m.bundleVersion = "" ∨ m.skillVersion = "" ∨ m.localEgoBrowserRuntimeVersion = "" ∨
        PROTOCOL_VERSION ∉ m.protocolVersions ∨ m.files = [] ∨ MAX_BUNDLE_FILES < m.files.length then
      .error .versionMismatch
    else .ok m

def checkSignature (key : Bytes) (m : LearningBundleManifest) : Except LearningBundleError Unit :=
  if c.verifyingKey key = false then .error .invalidSignature
  else
    match c.decode m.signature with
    | none => .error .invalidSignature
    | some signature =>
      if signature.length ≠ 64 then .error .invalidSignature
      else if c.verify key m.signedBytes signature then .ok ()
      else .error .invalidSignature

/-- Verify a fixed bundle and return the signed version metadata. -/
def verifyLearningBundleDetails (root : Root) (key : Bytes) :
    Except LearningBundleError VerifiedLearningBundle :=
  if root.path.absolute = false then .error .invalidRoot
  else if root.symlinked then .error .invalidPath
  else
    match root.tree with
    | none => .error .io
    | some t =>
      if t.isDirectory = false then .error .invalidRoot
      else do
        validateReadOnlyDirectory t
        if root.canonical = false then .error .invalidRoot
        else do
          let bytes ← readReadOnlyFile t manifestName false MAX_MANIFEST_BYTES
          let m ← readManifest bytes
          checkSignature c key m
          let seen ← m.files.foldlM (verifyFile c t) ⟨[], 0, m.signedBytes⟩
          verifyCompleteInventory t seen.paths
          verifySnapshot t (manifestName :: seen.paths)
          .ok
            { root := root.path
              digest := "sha256:" ++ hexDigest c seen.digestInput
              bundleVersion := m.bundleVersion
              skillVersion := m.skillVersion
              localEgoBrowserRuntimeVersion := m.localEgoBrowserRuntimeVersion }

/-- Verify a fixed, read-only learning bundle and return its digest. -/
def verifyLearningBundle (root : Root) (key : Bytes) (skillVersion runtimeVersion : String) :
    Except LearningBundleError String := do
  let verified ← verifyLearningBundleDetails c root key
  if verified.skillVersion ≠ skillVersion ∨
      verified.localEgoBrowserRuntimeVersion ≠ runtimeVersion then .error .versionMismatch
  else .ok verified.digest

/-! ## What the checks accept -/

theorem bind_ok_iff {ε α β : Type} {x : Except ε α} {f : α → Except ε β} {b : β} :
    (x >>= f) = .ok b ↔ ∃ a, x = .ok a ∧ f a = .ok b := by
  constructor
  · exact bind_ok
  · rintro ⟨a, rfl, h⟩
    exact h

theorem check_ok {ε β : Type} {x : Except ε Unit} {f : Unit → Except ε β} {b : β} :
    (x >>= f) = .ok b ↔ x = .ok () ∧ f () = .ok b :=
  bind_ok_iff.trans ⟨fun ⟨_, h⟩ => h, fun h => ⟨(), h⟩⟩

theorem forM_ok {ε α : Type} {l : List α} {f : α → Except ε Unit} :
    l.forM f = .ok () ↔ ∀ x ∈ l, f x = .ok () := by
  induction l with
  | nil => exact ⟨fun _ => nofun, fun _ => rfl⟩
  | cons x l ih =>
    refine check_ok.trans ((and_congr_right fun _ => ih).trans ?_)
    rw [List.forall_mem_cons]

theorem constantTimeEq_iff {a b : Bytes} : constantTimeEq a b = true ↔ a = b := by
  have hfold : ∀ (l : List (UInt8 × UInt8)) (acc : UInt8),
      l.foldl (fun acc p => acc ||| (p.1 ^^^ p.2)) acc = 0 ↔ acc = 0 ∧ ∀ p ∈ l, p.1 = p.2 := by
    intro l
    induction l with
    | nil => simp
    | cons p l ih =>
      intro acc
      rw [List.foldl_cons, ih, UInt8.or_eq_zero_iff, UInt8.xor_eq_zero_iff, List.forall_mem_cons,
        and_assoc]
  have hzip : ∀ (a b : Bytes), a.length = b.length → ((∀ p ∈ a.zip b, p.1 = p.2) ↔ a = b) := by
    intro a
    induction a with
    | nil => simp [eq_comm]
    | cons x a ih =>
      intro b hb
      cases b with
      | nil => cases hb
      | cons y b =>
        rw [List.zip_cons_cons, List.forall_mem_cons, ih b (by simpa using hb), List.cons.injEq]
  unfold constantTimeEq
  split
  · rename_i hne
    simp only [Bool.false_eq_true, false_iff]
    exact fun h => hne (congrArg List.length h)
  · rename_i heq
    rw [decide_eq_true_iff, hfold, hzip a b (not_not.mp heq)]
    exact and_iff_right rfl

/-- Of the current user, and not writable. -/
def Sealed (m : Meta) : Prop := m.writable = false ∧ m.owned = true

/-- What may lie in a bundle. -/
def Clean : Tree → Prop
  | .file m _ => Sealed m ∧ m.links = 1
  | .directory m _ => Sealed m
  | .symlink => False
  | .special => False

theorem requireReadOnly_ok {m : Meta} : requireReadOnly m = .ok () ↔ m.writable = false := by
  unfold requireReadOnly
  cases m.writable with
  | false => simp
  | true => simp

theorem validateReadOnlyDirectory_ok {t : Tree} :
    validateReadOnlyDirectory t = .ok () ↔ t.isDirectory = true ∧ Clean t := by
  cases t with
  | directory m es =>
    simp only [validateReadOnlyDirectory, check_ok, requireReadOnly_ok, Tree.isDirectory, Clean,
      Sealed, true_and]
    cases m.owned with
    | false => simp
    | true => simp
  | file m bytes => simp [validateReadOnlyDirectory, Tree.isDirectory]
  | symlink => simp [validateReadOnlyDirectory, Tree.isDirectory]
  | special => simp [validateReadOnlyDirectory, Tree.isDirectory]

theorem validateReadOnlyFileMetadata_ok {names : List Name} {t : Tree} :
    validateReadOnlyFileMetadata names t = .ok () ↔ (∃ m bytes, t = .file m bytes) ∧ Clean t := by
  cases t with
  | file m bytes =>
    simp only [validateReadOnlyFileMetadata, check_ok, requireReadOnly_ok, Clean, Sealed, and_assoc]
    by_cases h : m.owned = true ∧ m.links = 1
    · simp [h]
    · simp [h]
  | directory m es => simp [validateReadOnlyFileMetadata]
  | symlink => simp [validateReadOnlyFileMetadata]
  | special => simp [validateReadOnlyFileMetadata]

theorem metadata_ok {t s : Tree} {names : List Name} {trailing : Bool} :
    metadata t names trailing = .ok s ↔
      t.at? names = some s ∧ (trailing = true → s.isDirectory = true) := by
  unfold metadata
  cases t.at? names with
  | none => simp
  | some u =>
    by_cases h : trailing = true ∧ u.isDirectory = false
    · simp only [if_pos h, reduceCtorEq, Option.some.injEq, false_iff]
      rintro ⟨rfl, hd⟩
      rw [hd h.1] at h
      exact Bool.noConfusion h.2
    · simp only [if_neg h, Except.ok.injEq, Option.some.injEq, iff_self_and]
      rintro rfl ht
      exact Bool.eq_true_of_not_eq_false fun hf => h ⟨ht, hf⟩

theorem readReadOnlyFile_ok {t : Tree} {names : List Name} {trailing : Bool} {max : Nat}
    {bytes : Bytes} :
    readReadOnlyFile t names trailing max = .ok bytes ↔
      trailing = false ∧ bytes.length ≤ max ∧
        ∃ m, t.at? names = some (.file m bytes) ∧ Clean (.file m bytes) := by
  rw [readReadOnlyFile, bind_ok_iff]
  simp only [check_ok, metadata_ok, validateReadOnlyFileMetadata_ok]
  constructor
  · rintro ⟨s, ⟨hs, htr⟩, ⟨⟨m, b, rfl⟩, hc⟩, h⟩
    simp only [ite_error_ok, Except.ok.injEq] at h
    obtain ⟨hmax, rfl⟩ := h
    refine ⟨?_, not_lt.mp hmax, m, hs, hc⟩
    exact Bool.eq_false_iff.mpr fun ht => Bool.noConfusion (htr ht)
  · rintro ⟨rfl, hmax, m, hm, hc⟩
    exact ⟨_, ⟨hm, nofun⟩, ⟨⟨m, bytes, rfl⟩, hc⟩, if_neg (not_lt.mpr hmax)⟩

theorem mem_inits_tail {α : Type} {p q : List α} : q ∈ p.inits.tail ↔ q ≠ [] ∧ q <+: p := by
  cases p with
  | nil => simp
  | cons a p =>
    rw [List.inits_cons, List.tail_cons, List.mem_map]
    constructor
    · rintro ⟨r, hr, rfl⟩
      exact ⟨List.cons_ne_nil _ _, List.cons_prefix_cons.mpr ⟨rfl, (List.mem_inits _ _).mp hr⟩⟩
    · rintro ⟨hne, hq⟩
      cases q with
      | nil => exact absurd rfl hne
      | cons b q =>
        obtain ⟨rfl, hr⟩ := List.cons_prefix_cons.mp hq
        exact ⟨q, (List.mem_inits _ _).mpr hr, rfl⟩

/-- The parents of a path: what it continues. -/
theorem mem_parents {p q : List Name} : q ∈ parents p ↔ q ≠ [] ∧ ∃ r, r ≠ [] ∧ p = q ++ r := by
  rw [parents, mem_inits_tail]
  refine and_congr_right fun hq => ?_
  constructor
  · rintro ⟨r, hr⟩
    have hne : p ≠ [] := by
      rintro rfl
      exact hq (List.append_eq_nil_iff.mp hr).1
    refine ⟨r ++ [p.getLast hne], by simp, ?_⟩
    rw [← List.append_assoc, hr, List.dropLast_append_getLast]
  · rintro ⟨r, hne, rfl⟩
    rw [List.dropLast_append_of_ne_nil hne]
    exact List.prefix_append _ _

/-- What the checks on the way to `names` find. -/
structure Reachable (t : Tree) (names : List Name) : Prop where
  direct : ∀ p, p <+: names → t.at? p ≠ some .symlink
  directories : ∀ p ∈ parents names, ∃ d, t.at? p = some d ∧ d.isDirectory = true ∧ Clean d

theorem rejectSymlinkComponents_ok {t : Tree} {names : List Name} :
    rejectSymlinkComponents t names = .ok () ↔ ∀ p, p <+: names → t.at? p ≠ some .symlink := by
  unfold rejectSymlinkComponents
  rw [ite_error_ok, and_iff_left rfl, Bool.not_eq_true, List.any_eq_false]
  refine forall_congr' fun p => ?_
  rw [List.mem_inits]
  refine imp_congr_right fun _ => not_congr ?_
  rw [Option.any_eq_true]
  constructor
  · rintro ⟨s, hs, hl⟩
    cases s with
    | symlink => exact hs
    | _ => cases hl
  · exact fun h => ⟨_, h, rfl⟩

theorem requireReadOnlyParents_ok {t : Tree} {names : List Name} :
    requireReadOnlyParents t names = .ok () ↔
      ∀ p ∈ parents names, ∃ d, t.at? p = some d ∧ d.isDirectory = true ∧ Clean d := by
  unfold requireReadOnlyParents
  rw [forM_ok]
  refine forall₂_congr fun p _ => ?_
  simp only [bind_ok_iff, metadata_ok, validateReadOnlyDirectory_ok, Bool.false_eq_true,
    false_implies, and_true]

/-- The names a listed path gives to a file. -/
def LearningFile.target? (f : LearningFile) : Option (List Name) :=
  let path := Path.ofText f.path
  if f.path = "" ∨ path.absolute ∨ path.trailing then none else path.names?

theorem validateRelativePath_ok {f : LearningFile} {names : List Name} :
    validateRelativePath f.path = .ok (names, false) ↔ f.target? = some names := by
  simp only [validateRelativePath, LearningFile.target?]
  by_cases h : f.path = "" ∨ (Path.ofText f.path).absolute = true
  · rw [if_pos h, if_pos (by tauto)]
    simp
  · rw [if_neg h]
    cases hn : (Path.ofText f.path).names? with
    | none => simp
    | some ns =>
      cases ht : (Path.ofText f.path).trailing with
      | false => simp [h]
      | true => simp

/-- The file a listed path names is there as listed. -/
def Present (t : Tree) (f : LearningFile) (names : List Name) : Prop :=
  ∃ m bytes, t.at? names = some (.file m bytes) ∧ Clean (.file m bytes) ∧
    bytes.length = f.sizeBytes.toNat ∧ hexDigest c bytes = f.sha256

def LearningFile.digestInput (f : LearningFile) : Bytes :=
  utf8 f.path ++ utf8 f.sha256 ++ toBeBytes f.sizeBytes

theorem verifyFile_ok {t : Tree} {s s' : Seen} {f : LearningFile} :
    verifyFile c t s f = .ok s' ↔ ∃ names, f.target? = some names ∧ names ∉ s.paths ∧
      s.total + f.sizeBytes.toNat ≤ MAX_BUNDLE_BYTES ∧ Reachable t names ∧ Present c t f names ∧
      s' = ⟨names :: s.paths, s.total + f.sizeBytes.toNat, s.digestInput ++ f.digestInput⟩ := by
  rw [verifyFile, bind_ok_iff]
  simp only [ite_error_ok, check_ok]
  simp only [bind_ok_iff, ite_error_ok, rejectSymlinkComponents_ok, requireReadOnlyParents_ok,
    readReadOnlyFile_ok, Bool.not_eq_false, constantTimeEq_iff, Except.ok.injEq, not_not]
  constructor
  · rintro ⟨⟨names, tr⟩, hp, hn, -, htot, hd, hr, bytes, ⟨rfl, -, m, hm, hc⟩, hlen, hsha, rfl⟩
    refine ⟨names, validateRelativePath_ok.mp hp, hn, not_lt.mp htot, ⟨hd, hr⟩,
      ⟨m, bytes, hm, hc, hlen, utf8_injective hsha⟩, ?_⟩
    simp only [LearningFile.digestInput, List.append_assoc]
  · rintro ⟨names, hp, hn, htot, ⟨hd, hr⟩, ⟨m, bytes, hm, hc, hlen, hsha⟩, rfl⟩
    have h64 : ¬ 2 ^ 64 ≤ s.total + f.sizeBytes.toNat := by
      unfold MAX_BUNDLE_BYTES at htot
      omega
    refine ⟨(names, false), validateRelativePath_ok.mpr hp, hn, h64, not_lt.mpr htot, hd, hr, bytes,
      ⟨rfl, hlen.le, m, hm, hc⟩, hlen, congrArg utf8 hsha, ?_⟩
    simp only [LearningFile.digestInput, List.append_assoc]

def listedBytes (files : List LearningFile) : Nat := (files.map fun f => f.sizeBytes.toNat).sum

/-- The loop over the listed files. -/
theorem verifyFiles_ok {t : Tree} {files : List LearningFile} {s s' : Seen}
    (hs : s.total ≤ MAX_BUNDLE_BYTES) :
    files.foldlM (verifyFile c t) s = .ok s' ↔
      ∃ paths : List (List Name), files.map LearningFile.target? = paths.map some ∧ paths.Nodup ∧
        (∀ p ∈ paths, p ∉ s.paths) ∧ s.total + listedBytes files ≤ MAX_BUNDLE_BYTES ∧
        (∀ f ∈ files, ∀ p, f.target? = some p → Reachable t p ∧ Present c t f p) ∧
        s' = ⟨paths.reverse ++ s.paths, s.total + listedBytes files,
          s.digestInput ++ files.flatMap LearningFile.digestInput⟩ := by
  induction files generalizing s with
  | nil =>
    simp only [List.foldlM_nil, List.map_nil, listedBytes, List.sum_nil, Nat.add_zero]
    constructor
    · intro h
      cases h
      exact ⟨[], rfl, List.nodup_nil, nofun, hs, nofun, by simp⟩
    · rintro ⟨paths, hp, -, -, -, -, rfl⟩
      cases List.map_eq_nil_iff.mp hp.symm
      simp
      rfl
  | cons f files ih =>
    have hsum : listedBytes (f :: files) = f.sizeBytes.toNat + listedBytes files := by
      simp [listedBytes]
    rw [List.foldlM_cons, bind_ok_iff]
    constructor
    · rintro ⟨s1, h1, h2⟩
      obtain ⟨names, hn, hfresh, htot, hr, hp, rfl⟩ := (verifyFile_ok c).mp h1
      obtain ⟨paths, hmap, hnd, hdisj, hsum', hall, rfl⟩ := (ih htot).mp h2
      refine ⟨names :: paths, ?_, ?_, ?_, ?_, ?_, ?_⟩
      · rw [List.map_cons, List.map_cons, hn, hmap]
      · exact List.nodup_cons.mpr ⟨fun hm => hdisj _ hm List.mem_cons_self, hnd⟩
      · refine List.forall_mem_cons.mpr ⟨hfresh, fun p hp => ?_⟩
        exact fun hm => hdisj p hp (List.mem_cons_of_mem _ hm)
      · rw [hsum, ← Nat.add_assoc]
        exact hsum'
      · refine List.forall_mem_cons.mpr ⟨?_, hall⟩
        intro p hp'
        cases hn.symm.trans hp'
        exact ⟨hr, hp⟩
      · simp [hsum, Nat.add_assoc]
    · rintro ⟨paths, hmap, hnd, hdisj, hsum', hall, rfl⟩
      cases paths with
      | nil => cases hmap
      | cons names paths =>
        obtain ⟨hn, hmap⟩ := List.cons.inj hmap
        obtain ⟨hnot, hnd⟩ := List.nodup_cons.mp hnd
        obtain ⟨hfresh, hdisj⟩ := List.forall_mem_cons.mp hdisj
        obtain ⟨hf, hall⟩ := List.forall_mem_cons.mp hall
        rw [hsum] at hsum'
        have htot : s.total + f.sizeBytes.toNat ≤ MAX_BUNDLE_BYTES := by omega
        have hrest : s.total + f.sizeBytes.toNat + listedBytes files ≤ MAX_BUNDLE_BYTES := by omega
        refine ⟨_, (verifyFile_ok c).mpr
          ⟨names, hn, hfresh, htot, (hf _ hn).1, (hf _ hn).2, rfl⟩, ?_⟩
        refine (ih htot).mpr ⟨paths, hmap, hnd, ?_, hrest, hall, ?_⟩
        · intro p hp hm
          rcases List.mem_cons.mp hm with rfl | hm
          · exact hnot hp
          · exact hdisj p hp hm
        · simp [hsum, Nat.add_assoc]

/-! ## The inventory -/

/-- An entry that belongs in the bundle. -/
structure Fits (expected directories : List (List Name)) (x : List Name × Tree) : Prop where
  clean : Clean x.2
  listed : x.2.isDirectory = false → x.1 = manifestName ∨ x.1 ∈ expected
  above : x.2.isDirectory = true → x.1 ∈ directories

def directoriesIn (l : List (List Name × Tree)) : List (List Name) :=
  (l.filter fun x => x.2.isDirectory).map Prod.fst

def filesIn (l : List (List Name × Tree)) : List (List Name) :=
  (l.filter fun x => !x.2.isDirectory && x.1 ≠ manifestName).map Prod.fst

variable {expected directories : List (List Name)}

theorem visitEntry_ok {s s' : Observed} {x : List Name × Tree} :
    visitEntry expected directories s x = .ok s' ↔ Fits expected directories x ∧
      (∀ p ∈ directoriesIn [x], p ∉ s.directories) ∧
      s' = ⟨filesIn [x] ++ s.files, directoriesIn [x] ++ s.directories⟩ := by
  obtain ⟨p, t⟩ := x
  cases t with
  | symlink =>
    constructor
    · intro h
      cases h
    · rintro ⟨⟨hc, -, -⟩, -⟩
      exact hc.elim
  | special =>
    simp only [visitEntry, check_ok, validateReadOnlyFileMetadata_ok]
    constructor
    · rintro ⟨⟨-, hc⟩, -⟩
      exact hc.elim
    · rintro ⟨⟨hc, -, -⟩, -⟩
      exact hc.elim
  | directory m es =>
    simp only [visitEntry, check_ok, validateReadOnlyDirectory_ok, ite_error_ok, Except.ok.injEq,
      not_not]
    have hd : directoriesIn [(p, .directory m es)] = [p] := rfl
    have hf : filesIn [(p, .directory m es)] = [] := rfl
    rw [hd, hf]
    constructor
    · rintro ⟨⟨-, hc⟩, hin, hnot, rfl⟩
      exact ⟨⟨hc, fun h => (by cases h), fun _ => hin⟩, by simpa using hnot, rfl⟩
    · rintro ⟨⟨hc, -, hin⟩, hnot, rfl⟩
      exact ⟨⟨rfl, hc⟩, hin rfl, hnot p List.mem_cons_self, rfl⟩
  | file m bytes =>
    simp only [visitEntry, check_ok, validateReadOnlyFileMetadata_ok]
    have hd : directoriesIn [(p, .file m bytes)] = [] := rfl
    have hf : filesIn [(p, .file m bytes)] = if p = manifestName then [] else [p] := by
      by_cases h : p = manifestName
      · simp [filesIn, Tree.isDirectory, h]
      · simp [filesIn, Tree.isDirectory, h]
    rw [hd, hf]
    by_cases h : p = manifestName
    · rw [if_pos h, if_pos h, Except.ok.injEq]
      constructor
      · rintro ⟨⟨-, hc⟩, rfl⟩
        exact ⟨⟨hc, fun _ => .inl h, fun h => by cases h⟩, by simp, rfl⟩
      · rintro ⟨⟨hc, -, -⟩, -, rfl⟩
        exact ⟨⟨⟨m, bytes, rfl⟩, hc⟩, rfl⟩
    · rw [if_neg h, if_neg h, ite_error_ok, not_not, Except.ok.injEq]
      constructor
      · rintro ⟨⟨-, hc⟩, hin, rfl⟩
        exact ⟨⟨hc, fun _ => .inr hin, fun h => by cases h⟩, by simp, rfl⟩
      · rintro ⟨⟨hc, hin, -⟩, -, rfl⟩
        exact ⟨⟨⟨m, bytes, rfl⟩, hc⟩, (hin rfl).resolve_left h, rfl⟩

theorem directoriesIn_cons (x : List Name × Tree) (l : List (List Name × Tree)) :
    directoriesIn (x :: l) = directoriesIn [x] ++ directoriesIn l := by
  rw [directoriesIn, directoriesIn, directoriesIn, ← List.map_append, ← List.filter_append]
  rfl

theorem filesIn_cons (x : List Name × Tree) (l : List (List Name × Tree)) :
    filesIn (x :: l) = filesIn [x] ++ filesIn l := by
  rw [filesIn, filesIn, filesIn, ← List.map_append, ← List.filter_append]
  rfl

theorem mem_directoriesIn {l : List (List Name × Tree)} {p : List Name} :
    p ∈ directoriesIn l ↔ ∃ t, (p, t) ∈ l ∧ t.isDirectory = true := by
  simp [directoriesIn]

theorem mem_filesIn {l : List (List Name × Tree)} {p : List Name} :
    p ∈ filesIn l ↔ p ≠ manifestName ∧ ∃ t, (p, t) ∈ l ∧ t.isDirectory = false := by
  simp [filesIn]
  tauto

theorem reverse_filter_singleton {α β : Type} (f : α → Bool) (g : α → β) (x : α) :
    (([x].filter f).map g).reverse = ([x].filter f).map g := by
  rw [List.filter_singleton]
  cases f x with
  | false => rfl
  | true => rfl

/-- The entries in whatever order they come, each path once. -/
theorem visitEntries_ok {l : List (List Name × Tree)} (hl : (l.map Prod.fst).Nodup) {s s' : Observed}
    (hs : ∀ x ∈ l, x.1 ∉ s.directories) :
    l.foldlM (visitEntry expected directories) s = .ok s' ↔
      (∀ x ∈ l, Fits expected directories x) ∧
        s' = ⟨(filesIn l).reverse ++ s.files, (directoriesIn l).reverse ++ s.directories⟩ := by
  induction l generalizing s with
  | nil =>
    rw [List.foldlM_nil]
    constructor
    · intro h
      cases h
      exact ⟨nofun, rfl⟩
    · rintro ⟨-, rfl⟩
      rfl
  | cons x l ih =>
    rw [List.map_cons, List.nodup_cons] at hl
    obtain ⟨hx, hs⟩ := List.forall_mem_cons.mp hs
    have hdx : ∀ p ∈ directoriesIn [x], p = x.1 := by
      intro p hp
      obtain ⟨t, ht, -⟩ := mem_directoriesIn.mp hp
      rw [← List.mem_singleton.mp ht]
    have hnext : ∀ y ∈ l, y.1 ∉ directoriesIn [x] ++ s.directories := by
      intro y hy hm
      rcases List.mem_append.mp hm with hm | hm
      · exact hl.1 (List.mem_map.mpr ⟨y, hy, hdx _ hm⟩)
      · exact hs y hy hm
    have hfx : (filesIn [x]).reverse = filesIn [x] := reverse_filter_singleton _ _ x
    have hrx : (directoriesIn [x]).reverse = directoriesIn [x] := reverse_filter_singleton _ _ x
    rw [List.foldlM_cons, bind_ok_iff, List.forall_mem_cons, filesIn_cons, directoriesIn_cons,
      List.reverse_append, List.reverse_append, hfx, hrx, List.append_assoc, List.append_assoc]
    constructor
    · rintro ⟨s1, h1, h2⟩
      obtain ⟨hf, -, rfl⟩ := visitEntry_ok.mp h1
      obtain ⟨hall, rfl⟩ := (ih hl.2 hnext).mp h2
      exact ⟨⟨hf, hall⟩, rfl⟩
    · rintro ⟨⟨hf, hall⟩, rfl⟩
      refine ⟨_, visitEntry_ok.mpr ⟨hf, fun p hp => hdx p hp ▸ hx, rfl⟩, ?_⟩
      exact (ih hl.2 hnext).mpr ⟨hall, rfl⟩

theorem sameSet_iff {a b : List (List Name)} : sameSet a b = true ↔ ∀ p, p ∈ a ↔ p ∈ b := by
  simp only [sameSet, Bool.and_eq_true, List.all_eq_true, decide_eq_true_eq]
  exact ⟨fun h p => ⟨h.1 p, h.2 p⟩, fun h => ⟨fun p => (h p).mp, fun p => (h p).mpr⟩⟩

/-- The walk finds the expected files and directories, and nothing else. -/
theorem verifyCompleteInventory_ok {t : Tree} (ht : t.Distinct) (hd : t.isDirectory = true)
    {expected : List (List Name)} :
    verifyCompleteInventory t expected = .ok () ↔
      (∀ p s, p ≠ [] → t.at? p = some s → Fits expected (expected.flatMap parents) (p, s)) ∧
      (∀ p ∈ expected, p ≠ manifestName ∧ ∃ s, t.at? p = some s ∧ s.isDirectory = false) ∧
      (∀ p ∈ expected.flatMap parents, ∃ s, t.at? p = some s ∧ s.isDirectory = true) := by
  obtain ⟨l, hl⟩ : ∃ l, Tree.order .asRead [([], t.entries)] = l := ⟨_, rfl⟩
  have hperm : l.Perm (t.nodes []) := by
    have h := Tree.order_perm .asRead [([], t.entries)]
    rw [hl, List.flatMap_singleton] at h
    cases t with
    | directory m es => exact h
    | _ => cases hd
  have hmem : ∀ p s, (p, s) ∈ l ↔ p ≠ [] ∧ t.at? p = some s := by
    intro p s
    rw [hperm.mem_iff, Tree.mem_nodes ht]
    simp
  have hnd : (l.map Prod.fst).Nodup := (hperm.map _).nodup_iff.mpr (Tree.nodup_nodes ht [])
  have hroot : ∀ p s, t.at? p = some s → s.isDirectory = false → p ≠ [] := by
    rintro p s hs hf rfl
    cases hs
    rw [hd] at hf
    cases hf
  have hfiles : (∀ x ∈ l, Fits expected (expected.flatMap parents) x) →
      ((∀ p, p ∈ filesIn l ↔ p ∈ expected) ↔
        ∀ p ∈ expected, p ≠ manifestName ∧ ∃ s, t.at? p = some s ∧ s.isDirectory = false) := by
    intro hfit
    simp only [mem_filesIn, hmem]
    constructor
    · intro h p hp
      obtain ⟨hne, s, ⟨-, hs⟩, hf⟩ := (h p).mpr hp
      exact ⟨hne, s, hs, hf⟩
    · intro h p
      constructor
      · rintro ⟨hne, s, hs, hf⟩
        exact ((hfit (p, s) ((hmem p s).mpr hs)).listed hf).resolve_left hne
      · intro hp
        obtain ⟨hne, s, hs, hf⟩ := h p hp
        exact ⟨hne, s, ⟨hroot p s hs hf, hs⟩, hf⟩
  have hdirs : (∀ x ∈ l, Fits expected (expected.flatMap parents) x) →
      ((∀ p, p ∈ directoriesIn l ↔ p ∈ expected.flatMap parents) ↔
        ∀ p ∈ expected.flatMap parents, ∃ s, t.at? p = some s ∧ s.isDirectory = true) := by
    intro hfit
    simp only [mem_directoriesIn, hmem]
    constructor
    · intro h p hp
      obtain ⟨s, ⟨-, hs⟩, hf⟩ := (h p).mpr hp
      exact ⟨s, hs, hf⟩
    · intro h p
      constructor
      · rintro ⟨s, hs, hf⟩
        exact (hfit (p, s) ((hmem p s).mpr hs)).above hf
      · intro hp
        obtain ⟨s, hs, hf⟩ := h p hp
        obtain ⟨q, -, hpq⟩ := List.mem_flatMap.mp hp
        exact ⟨s, ⟨(mem_parents.mp hpq).1, hs⟩, hf⟩
  have hall : (∀ x ∈ l, Fits expected (expected.flatMap parents) x) ↔
      ∀ p s, p ≠ [] → t.at? p = some s → Fits expected (expected.flatMap parents) (p, s) := by
    constructor
    · exact fun h p s hp hs => h (p, s) ((hmem p s).mpr ⟨hp, hs⟩)
    · rintro h ⟨p, s⟩ hx
      obtain ⟨hp, hs⟩ := (hmem p s).mp hx
      exact h p s hp hs
  rw [verifyCompleteInventory, bind_ok_iff, Tree.walk_eq, hl, ← hall]
  have hvisit : ∀ s', l.foldlM (visitEntry expected (expected.flatMap parents)) ⟨[], []⟩ = .ok s' ↔
      (∀ x ∈ l, Fits expected (expected.flatMap parents) x) ∧
        s' = ⟨(filesIn l).reverse, (directoriesIn l).reverse⟩ := by
    intro s'
    rw [visitEntries_ok hnd fun _ _ => List.not_mem_nil, List.append_nil, List.append_nil]
  have hset : ∀ a b : List (List Name), sameSet a.reverse b = true ↔ ∀ p, p ∈ a ↔ p ∈ b := by
    intro a b
    rw [sameSet_iff]
    simp only [List.mem_reverse]
  constructor
  · rintro ⟨s, hs, h⟩
    obtain ⟨hfit, rfl⟩ := (hvisit s).mp hs
    split at h
    · rename_i hsame
      exact ⟨hfit, (hfiles hfit).mp ((hset _ _).mp hsame.1), (hdirs hfit).mp ((hset _ _).mp hsame.2)⟩
    · cases h
  · rintro ⟨hfit, hf, hp⟩
    refine ⟨_, (hvisit _).mpr ⟨hfit, rfl⟩, ?_⟩
    exact if_pos ⟨(hset _ _).mpr ((hfiles hfit).mpr hf), (hset _ _).mpr ((hdirs hfit).mpr hp)⟩

/-! ## The bundle -/

/-- The signature over the manifest is the key's. -/
def SignedBy (key : Bytes) (m : LearningBundleManifest) : Prop :=
  c.verifyingKey key = true ∧ ∃ signature, c.decode m.signature = some signature ∧
    signature.length = 64 ∧ c.verify key m.signedBytes signature = true

/-- The manifest file `bytes` reads as `m`, is signed by `key`, and follows the field rules. -/
structure SignedManifest (key : Bytes) (bytes : Bytes) (m : LearningBundleManifest) : Prop where
  size : bytes.length ≤ MAX_MANIFEST_BYTES
  strict : parseStrictJson LearningBundleManifest.ofJson bytes = .ok m
  signed : SignedBy c key m
  protocol : PROTOCOL_VERSION ∈ m.protocolVersions
  bundleVersion : m.bundleVersion ≠ ""
  skillVersion : m.skillVersion ≠ ""
  runtimeVersion : m.localEgoBrowserRuntimeVersion ≠ ""
  nonempty : m.files ≠ []
  count : m.files.length ≤ MAX_BUNDLE_FILES
  valid : ∀ f ∈ m.files, f.target? ≠ none
  distinct : (m.files.map LearningFile.target?).Nodup
  total : listedBytes m.files ≤ MAX_BUNDLE_BYTES

/-- The tree holds the manifest file, the listed files and nothing else. -/
structure SealedTree (bytes : Bytes) (m : LearningBundleManifest) (t : Tree) : Prop where
  root : t.isDirectory = true
  /-- No symbolic link, no special file, no hard link, nothing writable or of another user. -/
  clean : ∀ p s, t.at? p = some s → Clean s
  manifest : ∃ i, t.at? manifestName = some (.file i bytes)
  /-- The listed files are others than the manifest, and there as listed. -/
  listed : ∀ f ∈ m.files, ∀ p, f.target? = some p → p ≠ manifestName ∧
    ∃ i content, t.at? p = some (.file i content) ∧ content.length = f.sizeBytes.toNat ∧
      hexDigest c content = f.sha256
  /-- Every other file is missing. -/
  only : ∀ p i content, t.at? p = some (.file i content) →
    p = manifestName ∨ ∃ f ∈ m.files, f.target? = some p
  /-- Every directory leads to a listed file. -/
  directories : ∀ p s, p ≠ [] → t.at? p = some s → s.isDirectory = true →
    ∃ f ∈ m.files, ∃ r, r ≠ [] ∧ f.target? = some (p ++ r)

/-- What verification returns for a manifest. -/
def details (root : Root) (m : LearningBundleManifest) : VerifiedLearningBundle where
  root := root.path
  digest := "sha256:" ++ hexDigest c (m.signedBytes ++ m.files.flatMap LearningFile.digestInput)
  bundleVersion := m.bundleVersion
  skillVersion := m.skillVersion
  localEgoBrowserRuntimeVersion := m.localEgoBrowserRuntimeVersion

theorem checkSignature_ok {key : Bytes} {m : LearningBundleManifest} :
    checkSignature c key m = .ok () ↔ SignedBy c key m := by
  unfold checkSignature SignedBy
  rw [ite_error_ok, Bool.not_eq_false]
  refine and_congr_right fun _ => ?_
  cases c.decode m.signature with
  | none => simp
  | some signature =>
    simp only [ite_error_ok, not_not, Option.some.injEq, exists_eq_left']
    refine and_congr_right fun _ => ?_
    cases c.verify key m.signedBytes signature with
    | false => simp
    | true => simp

theorem readManifest_ok {bytes : Bytes} {m : LearningBundleManifest} :
    readManifest bytes = .ok m ↔
      parseStrictJson LearningBundleManifest.ofJson bytes = .ok m ∧ m.bundleVersion ≠ "" ∧
        m.skillVersion ≠ "" ∧ m.localEgoBrowserRuntimeVersion ≠ "" ∧
        PROTOCOL_VERSION ∈ m.protocolVersions ∧ m.files ≠ [] ∧
        m.files.length ≤ MAX_BUNDLE_FILES := by
  unfold readManifest
  cases parseStrictJson LearningBundleManifest.ofJson bytes with
  | error e => simp
  | ok m' =>
    simp only [ite_error_ok, Except.ok.injEq, not_or, not_not, not_lt]
    constructor
    · rintro ⟨h, rfl⟩
      exact ⟨rfl, h⟩
    · rintro ⟨rfl, h⟩
      exact ⟨h, rfl⟩

/-- Where everything is clean, a file's parents are the directories above it. -/
theorem reachable_of_clean {t : Tree} (hc : ∀ p s, t.at? p = some s → Clean s) {p : List Name}
    {s : Tree} (hs : t.at? p = some s) : Reachable t p := by
  constructor
  · exact fun q _ hq => hc q _ hq
  · intro q hq
    obtain ⟨-, r, hr, rfl⟩ := mem_parents.mp hq
    rw [Tree.at_append, Option.bind_eq_some_iff] at hs
    obtain ⟨d, hd, hs⟩ := hs
    refine ⟨d, hd, ?_, hc q d hd⟩
    cases d with
    | directory m es => rfl
    | _ =>
      cases r with
      | nil => exact absurd rfl hr
      | cons n r => simp [Tree.at?, Tree.entries] at hs

theorem verifySnapshot_ok {t : Tree} {paths : List (List Name)} :
    verifySnapshot t paths = .ok () ↔ (t.isDirectory = true ∧ Clean t) ∧
      ∀ p ∈ paths, Reachable t p ∧ ∃ i bytes, t.at? p = some (.file i bytes) ∧
        Clean (.file i bytes) := by
  rw [verifySnapshot, check_ok, validateReadOnlyDirectory_ok, forM_ok]
  refine and_congr_right fun _ => forall₂_congr fun p _ => ?_
  rw [check_ok, check_ok, rejectSymlinkComponents_ok, requireReadOnlyParents_ok, bind_ok_iff,
    ← and_assoc]
  refine and_congr ⟨fun h => ⟨h.1, h.2⟩, fun h => ⟨h.1, h.2⟩⟩ ?_
  simp only [metadata_ok, validateReadOnlyFileMetadata_ok]
  constructor
  · rintro ⟨s, ⟨hs, -⟩, ⟨i, bytes, rfl⟩, hc⟩
    exact ⟨i, bytes, hs, hc⟩
  · rintro ⟨i, bytes, hs, hc⟩
    exact ⟨_, ⟨hs, nofun⟩, ⟨i, bytes, rfl⟩, hc⟩

theorem exists_map_some {α β : Type} {l : List α} {f : α → Option β} (h : ∀ a ∈ l, f a ≠ none) :
    ∃ bs : List β, l.map f = bs.map some := by
  induction l with
  | nil => exact ⟨[], rfl⟩
  | cons a l ih =>
    obtain ⟨ha, hl⟩ := List.forall_mem_cons.mp h
    obtain ⟨b, hb⟩ := Option.ne_none_iff_exists'.mp ha
    obtain ⟨bs, hbs⟩ := ih hl
    exact ⟨b :: bs, by rw [List.map_cons, List.map_cons, hb, hbs]⟩

theorem mem_of_map_some {α β : Type} {l : List α} {f : α → Option β} {bs : List β}
    (h : l.map f = bs.map some) {b : β} : b ∈ bs ↔ ∃ a ∈ l, f a = some b := by
  have hb : b ∈ bs ↔ some b ∈ bs.map some := by simp
  rw [hb, ← h, List.mem_map]

/-- The three passes on a tree: the manifest file, the listed files, the inventory. -/
theorem verify_ok_iff {root : Root} {key : Bytes} {t : Tree} {v : VerifiedLearningBundle}
    (habs : root.path.absolute = true) (hlink : root.symlinked = false)
    (hcan : root.canonical = true) (hroot : root.tree = some t) (ht : t.Distinct) :
    verifyLearningBundleDetails c root key = .ok v ↔
      ∃ bytes m, SignedManifest c key bytes m ∧ SealedTree c bytes m t ∧ v = details c root m := by
  rw [verifyLearningBundleDetails, if_neg (by simp [habs]), if_neg (by simp [hlink]), hroot]
  simp only
  rw [ite_error_ok, Bool.not_eq_false, check_ok, validateReadOnlyDirectory_ok,
    if_neg (by simp [hcan])]
  constructor
  · rintro ⟨hd, ⟨-, hc⟩, h⟩
    obtain ⟨bytes, hbytes, h⟩ := bind_ok h
    obtain ⟨m, hm, h⟩ := bind_ok h
    obtain ⟨hsig, h⟩ := check_ok.mp h
    obtain ⟨seen, hseen, h⟩ := bind_ok h
    obtain ⟨hinv, h⟩ := check_ok.mp h
    obtain ⟨-, h⟩ := check_ok.mp h
    cases h
    obtain ⟨-, hsize, i, hman, -⟩ := readReadOnlyFile_ok.mp hbytes
    obtain ⟨hstrict, hb, hs, hr, hp, hne, hcount⟩ := readManifest_ok.mp hm
    have hzero : (⟨[], 0, m.signedBytes⟩ : Seen).total ≤ MAX_BUNDLE_BYTES := Nat.zero_le _
    have hloop := (verifyFiles_ok c hzero).mp hseen
    obtain ⟨paths, hmap, hnd, -, htot, hall, hs'⟩ := hloop
    subst hs'
    rw [List.append_nil] at hinv
    obtain ⟨hfit, hfile, -⟩ := (verifyCompleteInventory_ok ht hd).mp hinv
    have hpaths : ∀ p, p ∈ paths.reverse ↔ ∃ f ∈ m.files, f.target? = some p := fun p =>
      List.mem_reverse.trans (mem_of_map_some hmap)
    have htotal : listedBytes m.files ≤ MAX_BUNDLE_BYTES := (Nat.zero_add _).symm.trans_le htot
    refine ⟨bytes, m, ⟨hsize, hstrict, (checkSignature_ok c).mp hsig, hp, hb, hs, hr, hne, hcount,
      ?_, ?_, htotal⟩, ⟨hd, ?_, ⟨i, hman⟩, ?_, ?_, ?_⟩, by rw [details]⟩
    · intro f hf hnone
      have hin : f.target? ∈ paths.map some := hmap ▸ List.mem_map_of_mem hf
      rw [hnone] at hin
      simp at hin
    · rw [hmap]
      exact hnd.map (Option.some_injective _)
    · intro p s hs
      by_cases hp : p = []
      · subst hp
        cases hs
        exact hc
      · exact (hfit p s hp hs).clean
    · intro f hf p hp
      obtain ⟨-, j, content, hat, -, hlen, hsha⟩ := hall f hf p hp
      exact ⟨(hfile p ((hpaths p).mpr ⟨f, hf, hp⟩)).1, j, content, hat, hlen, hsha⟩
    · intro p j content hat
      have hp : p ≠ [] := by
        rintro rfl
        cases hat
        cases hd
      exact ((hfit p _ hp hat).listed rfl).imp_right (hpaths p).mp
    · intro p s hp hat hdir
      obtain ⟨q, hq, hpq⟩ := List.mem_flatMap.mp ((hfit p s hp hat).above hdir)
      obtain ⟨-, r, hr, rfl⟩ := mem_parents.mp hpq
      obtain ⟨f, hf, htarget⟩ := (hpaths _).mp hq
      exact ⟨f, hf, r, hr, htarget⟩
  · rintro ⟨bytes, m, hm, hs, rfl⟩
    obtain ⟨paths, hmap⟩ := exists_map_some hm.valid
    have hpaths : ∀ p, p ∈ paths.reverse ↔ ∃ f ∈ m.files, f.target? = some p := fun p =>
      List.mem_reverse.trans (mem_of_map_some hmap)
    have hnd : paths.Nodup := by
      have h := hm.distinct
      rw [hmap] at h
      exact h.of_map
    have hpresent : ∀ p ∈ paths.reverse, ∃ i content, t.at? p = some (.file i content) := by
      intro p hp
      obtain ⟨f, hf, htarget⟩ := (hpaths p).mp hp
      obtain ⟨-, i, content, hat, -⟩ := hs.listed f hf p htarget
      exact ⟨i, content, hat⟩
    obtain ⟨i, hman⟩ := hs.manifest
    have hroot : Clean t := hs.clean [] t rfl
    have hread : readReadOnlyFile t manifestName false MAX_MANIFEST_BYTES = .ok bytes :=
      readReadOnlyFile_ok.mpr ⟨rfl, hm.size, i, hman, hs.clean _ _ hman⟩
    have hmanifest : readManifest bytes = .ok m :=
      readManifest_ok.mpr ⟨hm.strict, hm.bundleVersion, hm.skillVersion, hm.runtimeVersion,
        hm.protocol, hm.nonempty, hm.count⟩
    have hall : ∀ f ∈ m.files, ∀ p, f.target? = some p → Reachable t p ∧ Present c t f p := by
      intro f hf p htarget
      obtain ⟨-, j, content, hat, hlen, hsha⟩ := hs.listed f hf p htarget
      exact ⟨reachable_of_clean hs.clean hat, j, content, hat, hs.clean _ _ hat, hlen, hsha⟩
    have hzero : (⟨[], 0, m.signedBytes⟩ : Seen).total ≤ MAX_BUNDLE_BYTES := Nat.zero_le _
    have htotal : 0 + listedBytes m.files ≤ MAX_BUNDLE_BYTES := by
      rw [Nat.zero_add]
      exact hm.total
    have hfiles := (verifyFiles_ok c hzero).mpr
      ⟨paths, hmap, hnd, fun _ _ => List.not_mem_nil, htotal, hall, rfl⟩
    have hinv : verifyCompleteInventory t paths.reverse = .ok () := by
      refine (verifyCompleteInventory_ok ht hs.root).mpr ⟨?_, ?_, ?_⟩
      · intro p s hp hat
        refine ⟨hs.clean p s hat, ?_, ?_⟩
        · intro hf
          cases s with
          | file j content => exact (hs.only p j content hat).imp_right (hpaths p).mpr
          | directory j es => cases hf
          | symlink => exact (hs.clean p _ hat).elim
          | special => exact (hs.clean p _ hat).elim
        · intro hdir
          obtain ⟨f, hf, r, hr, htarget⟩ := hs.directories p s hp hat hdir
          exact List.mem_flatMap.mpr
            ⟨p ++ r, (hpaths _).mpr ⟨f, hf, htarget⟩, mem_parents.mpr ⟨hp, r, hr, rfl⟩⟩
      · intro p hp
        obtain ⟨f, hf, htarget⟩ := (hpaths p).mp hp
        obtain ⟨hne, j, content, hat, -⟩ := hs.listed f hf p htarget
        exact ⟨hne, _, hat, rfl⟩
      · intro p hp
        obtain ⟨q, hq, hpq⟩ := List.mem_flatMap.mp hp
        obtain ⟨j, content, hat⟩ := hpresent q hq
        obtain ⟨d, hd, hdir, -⟩ := (reachable_of_clean hs.clean hat).directories p hpq
        exact ⟨d, hd, hdir⟩
    have hsnap : verifySnapshot t (manifestName :: paths.reverse) = .ok () := by
      refine verifySnapshot_ok.mpr ⟨⟨hs.root, hroot⟩, List.forall_mem_cons.mpr ⟨?_, ?_⟩⟩
      · exact ⟨reachable_of_clean hs.clean hman, i, bytes, hman, hs.clean _ _ hman⟩
      · intro p hp
        obtain ⟨j, content, hat⟩ := hpresent p hp
        exact ⟨reachable_of_clean hs.clean hat, j, content, hat, hs.clean _ _ hat⟩
    refine ⟨hs.root, ⟨hs.root, hroot⟩, ?_⟩
    rw [hread, ok_bind, hmanifest, ok_bind, (checkSignature_ok c).mpr hm.signed, ok_bind, hfiles,
      ok_bind, List.append_nil, hinv, ok_bind, hsnap, ok_bind, details]

/-- The directory worklist looks at every entry below the root once, and verification accepts
exactly the signed manifests with their trees. -/
theorem verify_iff {root : Root} {key : Bytes} {t : Tree} (habs : root.path.absolute = true)
    (hlink : root.symlinked = false) (hcan : root.canonical = true) (hroot : root.tree = some t)
    (ht : t.Distinct) :
    ((∃ v, verifyLearningBundleDetails c root key = .ok v) ↔
      ∃ bytes m, SignedManifest c key bytes m ∧ SealedTree c bytes m t) ∧
    ∀ expected directories s, ∃ visited : List (List Name × Tree),
      visited.Perm (Tree.nodes.nodesAll [] t.entries) ∧
      Tree.walk .asRead (visitEntry expected directories) [([], t.entries)] s =
        visited.foldlM (visitEntry expected directories) s := by
  constructor
  · constructor
    · rintro ⟨v, hv⟩
      obtain ⟨bytes, m, hm, hs, -⟩ := (verify_ok_iff c habs hlink hcan hroot ht).mp hv
      exact ⟨bytes, m, hm, hs⟩
    · rintro ⟨bytes, m, hm, hs⟩
      exact ⟨_, (verify_ok_iff c habs hlink hcan hroot ht).mpr ⟨bytes, m, hm, hs, rfl⟩⟩
  · intro expected directories s
    refine ⟨Tree.order .asRead [([], t.entries)], ?_, Tree.walk_eq _ _ _ _⟩
    have h := Tree.order_perm .asRead [([], t.entries)]
    rwa [List.flatMap_singleton] at h

end Verify

/-! ## Manifest text -/

theorem LearningFile.ofJson_toJson (f : LearningFile) : LearningFile.ofJson f.toJson = some f := by
  refine reads (a := f.members) (by simp [fields, LearningFile.toJson, LearningFile.members,
    LearningFile.names]) ?_
  refine reads (a := f.path) rfl ?_
  refine reads (a := f.sizeBytes) (asU64_ofU64 _) ?_
  exact reads (a := f.sha256) rfl rfl

theorem LearningBundleManifest.ofJson_toJson (m : LearningBundleManifest) :
    LearningBundleManifest.ofJson m.toJson = some m := by
  have hp : asList asString (.arr (m.protocolVersions.map .str)) = some m.protocolVersions := by
    rw [asList, mapM_map (h := id) fun s _ => asString_str s, List.map_id]
  have hf : asList LearningFile.ofJson (.arr (m.files.map LearningFile.toJson)) = some m.files := by
    rw [asList, mapM_map (h := id) fun f _ => f.ofJson_toJson, List.map_id]
  refine reads (a := m.members) (by simp [fields, LearningBundleManifest.toJson,
    LearningBundleManifest.members, LearningBundleManifest.names]) ?_
  refine reads (a := m.bundleVersion) rfl ?_
  refine reads (a := m.skillVersion) rfl ?_
  refine reads (a := m.localEgoBrowserRuntimeVersion) rfl ?_
  refine reads hp ?_
  refine reads hf ?_
  refine reads (a := m.signingKeyId) rfl ?_
  exact reads (a := m.signature) rfl rfl

theorem LearningFile.toJson_strict (f : LearningFile) : Strict f.toJson ∧ nesting f.toJson = 1 := by
  simp [LearningFile.toJson, LearningFile.members, Strict, StrictMembers, nesting, nestingMembers]

theorem LearningBundleManifest.toJson_strict (m : LearningBundleManifest) :
    Strict m.toJson ∧ nesting m.toJson < depthLimit := by
  have hps : StrictElems (m.protocolVersions.map .str) :=
    strictElems_iff.mpr (by simp [Strict])
  have hpn : nestingElems (m.protocolVersions.map .str) ≤ 1 :=
    nestingElems_le_iff.mpr (by simp [nesting])
  have hfs : StrictElems (m.files.map LearningFile.toJson) :=
    strictElems_iff.mpr (by simp [LearningFile.toJson_strict])
  have hfn : nestingElems (m.files.map LearningFile.toJson) ≤ 1 :=
    nestingElems_le_iff.mpr (by simp [LearningFile.toJson_strict])
  constructor
  · simp [LearningBundleManifest.toJson, LearningBundleManifest.members, Strict, StrictMembers, hps,
      hfs]
  · simp [LearningBundleManifest.toJson, LearningBundleManifest.members, nesting, nestingMembers,
      depthLimit]
    omega

theorem LearningBundleManifest.toJson_inRange (m : LearningBundleManifest) : InRange m.toJson := by
  have hps : InRangeElems (m.protocolVersions.map .str) := inRangeElems_iff.mpr (by simp)
  have hfs : InRangeElems (m.files.map LearningFile.toJson) :=
    inRangeElems_iff.mpr
      (by simp [LearningFile.toJson, LearningFile.members, InRange, InRangeMembers])
  simp [LearningBundleManifest.toJson, LearningBundleManifest.members, InRange, InRangeMembers, hps,
    hfs]

/-- `pretty_manifest`. -/
def prettyManifest (m : LearningBundleManifest) : Bytes := prettyJson m.toJson ++ utf8 "\n"

theorem parse_prettyManifest (m : LearningBundleManifest) :
    parseStrictJson LearningBundleManifest.ofJson (prettyManifest m) = .ok m :=
  parseStrictJson_pretty m.toJson_strict.1 m.toJson_inRange m.toJson_strict.2 m.ofJson_toJson

/-! ## A bundle -/

def sampleNote : Bytes := utf8 "verified learning\n"

def sampleManifest : LearningBundleManifest where
  bundleVersion := "2026.09.1"
  skillVersion := "2.0.0"
  localEgoBrowserRuntimeVersion := "0.5.0.32"
  protocolVersions := [PROTOCOL_VERSION]
  files :=
    [{ path := "learnings/note.md"
       sizeBytes := 18
       sha256 := "1302759bde7a39efc24ea7df45bdf223bc89ee968965af5eb55e85f4e9ef7739" }]
  signingKeyId := "test"
  signature :=
    "G/KQ3D8im5+uW3H5uEH/x/lvJQbTaeMNrp5btt2P0PXb/JvZm1YqPdZOPZ+h9TVenEp74TTa7eN99SFVYGsaCQ=="

def samplePublicKey : Bytes :=
  [215, 90, 152, 1, 130, 177, 10, 183, 213, 75, 254, 211, 201, 100, 7, 58, 14, 225, 114, 243, 218,
    166, 35, 37, 175, 2, 26, 104, 247, 7, 81, 26]

def sampleSignature : Bytes :=
  [27, 242, 144, 220, 63, 34, 155, 159, 174, 91, 113, 249, 184, 65, 255, 199, 249, 111, 37, 6, 211,
    105, 227, 13, 174, 158, 91, 182, 221, 143, 208, 245, 219, 252, 155, 217, 155, 86, 42, 61, 214,
    78, 61, 159, 161, 245, 53, 94, 156, 74, 123, 225, 52, 218, 237, 227, 125, 245, 33, 85, 96, 107,
    26, 9]

/-- The crates on this bundle: what they say of its note, and of its digest and signature. -/
def sampleCrypto : BundleCrypto where
  sha256 bytes :=
    if bytes = sampleNote then
      [19, 2, 117, 155, 222, 122, 57, 239, 194, 78, 167, 223, 69, 189, 242, 35, 188, 137, 238, 150,
        137, 101, 175, 94, 181, 94, 133, 244, 233, 239, 119, 57]
    else
      [104, 161, 97, 68, 231, 10, 236, 168, 119, 205, 221, 49, 48, 242, 67, 155, 255, 106, 86, 80,
        201, 61, 27, 164, 134, 43, 49, 160, 54, 116, 117, 0]
  decode text := if text = sampleManifest.signature then some sampleSignature else none
  verifyingKey key := key = samplePublicKey
  verify key message signature :=
    key = samplePublicKey ∧ message = sampleManifest.signedBytes ∧ signature = sampleSignature

def sampleTree : Tree :=
  .directory ⟨3, true, false⟩
    [(.text "manifest.json", .file ⟨1, true, false⟩ (prettyManifest sampleManifest)),
      (.text "learnings",
        .directory ⟨2, true, false⟩ [(.text "note.md", .file ⟨1, true, false⟩ sampleNote)])]

def sampleRoot : Root := ⟨.ofText "/opt/ego-browser/bundle", false, true, some sampleTree⟩

theorem sampleTree_distinct : sampleTree.Distinct :=
  ⟨by decide, trivial, ⟨by decide, trivial, trivial⟩, trivial⟩

theorem sample_size : (prettyManifest sampleManifest).length ≤ MAX_MANIFEST_BYTES := by
  have h : utf8Len (pretty 0 sampleManifest.toJson) = 479 := by decide +kernel
  rw [prettyManifest, List.length_append, prettyJson, utf8_ofList_length, h]
  decide

theorem sample_target : (sampleManifest.files.map LearningFile.target?) =
    [some [.text "learnings", .text "note.md"]] := by
  decide +kernel

theorem sample_hash : hexDigest sampleCrypto sampleNote =
    "1302759bde7a39efc24ea7df45bdf223bc89ee968965af5eb55e85f4e9ef7739" := by
  decide +kernel

theorem sample_signed : SignedManifest sampleCrypto samplePublicKey (prettyManifest sampleManifest)
    sampleManifest where
  size := sample_size
  strict := parse_prettyManifest _
  signed := by
    refine ⟨by simp [sampleCrypto], sampleSignature, by simp [sampleCrypto], rfl, ?_⟩
    simp [sampleCrypto]
  protocol := List.mem_singleton.mpr rfl
  bundleVersion := by decide
  skillVersion := by decide
  runtimeVersion := by decide
  nonempty := List.cons_ne_nil _ _
  count := by decide
  valid := by
    intro f hf hnone
    have h : f.target? ∈ sampleManifest.files.map LearningFile.target? := List.mem_map_of_mem hf
    rw [sample_target, hnone] at h
    cases List.mem_singleton.mp h
  distinct := by
    rw [sample_target]
    exact List.nodup_singleton _
  total := by decide

theorem sampleTree_at {p : List Name} {s : Tree} (h : sampleTree.at? p = some s) :
    p = [] ∧ s = sampleTree ∨
    p = manifestName ∧ s = .file ⟨1, true, false⟩ (prettyManifest sampleManifest) ∨
    p = [.text "learnings"] ∧
      s = .directory ⟨2, true, false⟩ [(.text "note.md", .file ⟨1, true, false⟩ sampleNote)] ∨
    p = [.text "learnings", .text "note.md"] ∧ s = .file ⟨1, true, false⟩ sampleNote := by
  by_cases hp : p = []
  · subst hp
    cases h
    exact .inl ⟨rfl, rfl⟩
  · have hm := (Tree.mem_nodes sampleTree_distinct (p := [])).mpr ⟨p, hp, rfl, h⟩
    simpa [sampleTree, Tree.nodes, Tree.nodes.nodesAll, manifestName] using Or.inr hm

theorem sample_sealed : SealedTree sampleCrypto (prettyManifest sampleManifest) sampleManifest
    sampleTree where
  root := rfl
  clean := by
    intro p s h
    rcases sampleTree_at h with ⟨-, rfl⟩ | ⟨-, rfl⟩ | ⟨-, rfl⟩ | ⟨-, rfl⟩
    · exact ⟨rfl, rfl⟩
    · exact ⟨⟨rfl, rfl⟩, rfl⟩
    · exact ⟨rfl, rfl⟩
    · exact ⟨⟨rfl, rfl⟩, rfl⟩
  manifest := ⟨_, rfl⟩
  listed := by
    intro f hf p hp
    cases List.mem_singleton.mp hf
    cases hp.symm.trans (List.cons.inj sample_target).1
    exact ⟨by decide, _, _, rfl, by decide +kernel, sample_hash⟩
  only := by
    intro p i content h
    rcases sampleTree_at h with ⟨-, hs⟩ | ⟨rfl, -⟩ | ⟨-, hs⟩ | ⟨rfl, -⟩
    · cases hs
    · exact .inl rfl
    · cases hs
    · exact .inr ⟨_, List.mem_singleton.mpr rfl, (List.cons.inj sample_target).1⟩
  directories := by
    intro p s hp h hd
    rcases sampleTree_at h with ⟨rfl, -⟩ | ⟨-, rfl⟩ | ⟨rfl, -⟩ | ⟨-, rfl⟩
    · exact absurd rfl hp
    · cases hd
    · exact ⟨_, List.mem_singleton.mpr rfl, [.text "note.md"], List.cons_ne_nil _ _,
        (List.cons.inj sample_target).1⟩
    · cases hd

theorem sample_verified :
    ∃ v, verifyLearningBundleDetails sampleCrypto sampleRoot samplePublicKey = .ok v :=
  (verify_iff sampleCrypto rfl rfl rfl rfl sampleTree_distinct).1.mpr
    ⟨_, _, sample_signed, sample_sealed⟩

end Protocol
end EgoBridge
