import EgoBridge.Protocol.Learning

/-!
# Protocol.LearningTool

Building and signing a learning bundle offline, against what verification accepts.

Files of the bundle can be read by whoever signs it. The private key is given, and no public key
is written.

* `collectFiles_ok`  — what the tool lists is exactly the files under `learnings`.
* `sign_verify_iff`  — when verification accepts what the tool has signed.
-/

namespace EgoBridge
namespace Protocol

open Json Files

def SUPPORTED_SKILL_VERSION : String := "2.0.0"
def SUPPORTED_LOCAL_RUNTIME_VERSION : String := "0.5.0.32"

/-- One constructor for each message of the tool. -/
inductive ToolError where
  | rootNotAbsolute
  | pathSymlink
  | rootNotCanonical
  | rootNotDirectory
  | invalidToken (label : String)
  | noLearnings
  | learningsNotDirectory
  | symlink (path : List Name)
  | notUtf8
  | duplicatePath
  | sizeOverflow
  | limits
  | notRegular (path : List Name)
  | noPayload
  | manifestExists
  | io
  | verification (error : LearningBundleError)
  deriving DecidableEq

/-- What the crates supply to sign. -/
structure Signer extends BundleCrypto where
  encode : Bytes → String
  publicKey : Key → Bytes
  sign : Key → Bytes → Bytes

structure Signer.Lawful (c : Signer) : Prop where
  decode_encode : ∀ bytes, c.decode (c.encode bytes) = some bytes
  verifyingKey : ∀ key, c.verifyingKey (c.publicKey key) = true
  sign_length : ∀ key message, (c.sign key message).length = 64
  verify_sign : ∀ key message, c.verify (c.publicKey key) message (c.sign key message) = true

def learningsName : Name := .text "learnings"

/-- The order of `OsString`. -/
def nameBytes : Name → Bytes
  | .text s => utf8 s
  | .other bytes => bytes

def nameLe (a b : Name × Tree) : Prop := nameBytes a.1 ≤ nameBytes b.1

instance : DecidableRel nameLe := fun a b => inferInstanceAs (Decidable (nameBytes a.1 ≤ nameBytes b.1))

def byName : Tree.Arrangement := ⟨List.insertionSort nameLe, List.perm_insertionSort nameLe⟩

section Tool

variable (c : Signer)

def canonicalBundleRoot (root : Root) : Except ToolError Tree :=
  if root.path.absolute = false then .error .rootNotAbsolute
  else if root.symlinked then .error .pathSymlink
  else
    match root.tree with
    | none => .error .io
    | some t =>
      if root.canonical = false then .error .rootNotCanonical
      else if t.isDirectory = false then .error .rootNotDirectory
      else .ok t

def isTokenChar (b : UInt8) : Bool :=
  (0x30 ≤ b && b ≤ 0x39) || (0x41 ≤ b && b ≤ 0x5a) || (0x61 ≤ b && b ≤ 0x7a) || b ∈ utf8 "._+-"

def validateToken (value label : String) : Except ToolError Unit :=
  if value = "" ∨ 128 < (utf8 value).length ∨ ¬ (utf8 value).all isTokenChar then
    .error (.invalidToken label)
  else .ok ()

/-- What `collect_files` has found. -/
structure CollectedPaths where
  paths : List String
  total : Nat

def collectEntry (s : CollectedPaths) (x : List Name × Tree) : Except ToolError CollectedPaths :=
  match x.2 with
  | .symlink => .error (.symlink x.1)
  | .directory _ _ => .ok s
  | .special => .error (.notRegular x.1)
  | .file _ bytes =>
    match relativeText x.1 with
    | none => .error .notUtf8
    | some text =>
      if text ∈ s.paths then .error .duplicatePath
      else if 2 ^ 64 ≤ s.total + bytes.length then .error .sizeOverflow
      else if MAX_BUNDLE_FILES < s.paths.length + 1 ∨ MAX_BUNDLE_BYTES < s.total + bytes.length then
        .error .limits
      else .ok ⟨text :: s.paths, s.total + bytes.length⟩

/-- Reading a collected path again, from its text. -/
def readCollected (t : Tree) (relative : String) : Except ToolError LearningFile :=
  match (Path.ofText relative).names?.bind t.at? with
  | some (.file _ bytes) =>
    .ok { path := relative
          sizeBytes := UInt64.ofNat bytes.length
          sha256 := hexDigest c.toBundleCrypto bytes }
  | _ => .error .io

def collectFiles (t : Tree) : Except ToolError (List LearningFile) :=
  match t.at? [learningsName] with
  | none => .error .noLearnings
  | some (.directory _ es) => do
    let s ← Tree.walk byName collectEntry [([learningsName], es)] ⟨[], 0⟩
    -- A `BTreeSet` gives its texts in order.
    (s.paths.insertionSort (· ≤ ·)).mapM (readCollected c t)
  | some _ => .error .learningsNotDirectory

def buildManifest (t : Tree) (bundleVersion signingKeyId : String) :
    Except ToolError LearningBundleManifest := do
  validateToken bundleVersion "bundle version"
  validateToken signingKeyId "signing key ID"
  let files ← collectFiles c t
  if files = [] then .error .noPayload
  else
    .ok
      { bundleVersion := bundleVersion
        skillVersion := SUPPORTED_SKILL_VERSION
        localEgoBrowserRuntimeVersion := SUPPORTED_LOCAL_RUNTIME_VERSION
        protocolVersions := [PROTOCOL_VERSION]
        files := files
        signingKeyId := signingKeyId
        signature := "" }

/-- Whose modes the caller may change. -/
def changeable (privileged : Bool) : Tree → Bool
  | .file m _ => m.owned || privileged
  | .directory m _ => m.owned || privileged
  | _ => true

def chmodEntry (privileged : Bool) (_ : Unit) (x : List Name × Tree) : Except ToolError Unit :=
  match x.2 with
  | .symlink => .error (.symlink x.1)
  | .directory _ _ => .ok ()
  | .file _ _ => if changeable privileged x.2 then .ok () else .error .io
  | .special => .error (.notRegular x.1)

/-- Files in the walk, directories after it. -/
def makeBundleReadOnly (privileged : Bool) (t : Tree) : Except ToolError Tree := do
  Tree.walk .asRead (chmodEntry privileged) [([], t.entries)] ()
  if (([], t) :: t.nodes []).all fun x => !x.2.isDirectory || changeable privileged x.2 then
    .ok t.readOnly
  else .error .io

/-- The new manifest, where the file system takes it. -/
def atomicWrite (io : Bool) (t : Tree) (bytes : Bytes) : Except ToolError Tree :=
  match t with
  | .directory m es =>
    if io then .ok (.directory m ((.text "manifest.json", .file ⟨1, true, true⟩ bytes) :: es))
    else .error .io
  | _ => .error .io

/-- The same path, over another tree. -/
def Root.holding (root : Root) (t : Tree) : Root :=
  ⟨root.path, root.symlinked, root.canonical, some t⟩

structure SignedBundle where
  manifest : LearningBundleManifest
  tree : Tree

/-- `sign_command` up to its verification. -/
def signBundle (privileged io : Bool) (root : Root) (key : Key)
    (bundleVersion signingKeyId : String) : Except ToolError SignedBundle := do
  let t ← canonicalBundleRoot root
  let unsigned ← buildManifest c t bundleVersion signingKeyId
  let manifest := { unsigned with signature := c.encode (c.sign key unsigned.signedBytes) }
  if (t.at? manifestName).isSome then .error .manifestExists
  else do
    let written ← atomicWrite io t (prettyManifest manifest)
    let tree ← makeBundleReadOnly privileged written
    .ok ⟨manifest, tree⟩

/-- The bundle left behind, and the digest shown. -/
def signCommand (privileged io : Bool) (root : Root) (key : Key)
    (bundleVersion signingKeyId : String) : Except ToolError (SignedBundle × String) := do
  let out ← signBundle c privileged io root key bundleVersion signingKeyId
  match verifyLearningBundle c.toBundleCrypto (root.holding out.tree) (c.publicKey key)
      SUPPORTED_SKILL_VERSION SUPPORTED_LOCAL_RUNTIME_VERSION with
  | .error error => .error (.verification error)
  | .ok digest => .ok (out, digest)

/-! ## What is listed -/

def textOf (x : List Name × Tree) : Option String :=
  match x.2 with
  | .file _ _ => relativeText x.1
  | _ => none

def bytesOf (x : List Name × Tree) : Nat :=
  match x.2 with
  | .file _ bytes => bytes.length
  | _ => 0

/-- An entry that can be listed, or looked into. -/
def Regular (x : List Name × Tree) : Prop :=
  x.2.isDirectory = true ∨ ∃ m bytes text, x.2 = .file m bytes ∧ relativeText x.1 = some text

theorem collectEntry_ok {s s' : CollectedPaths} {x : List Name × Tree} (h : collectEntry s x = .ok s') :
    Regular x ∧ s'.paths = (textOf x).toList ++ s.paths ∧ s'.total = s.total + bytesOf x ∧
      (s.paths.Nodup → s'.paths.Nodup) ∧
      (s.paths.length ≤ MAX_BUNDLE_FILES → s'.paths.length ≤ MAX_BUNDLE_FILES) ∧
      (s.total ≤ MAX_BUNDLE_BYTES → s'.total ≤ MAX_BUNDLE_BYTES) := by
  obtain ⟨p, t⟩ := x
  cases t with
  | symlink => cases h
  | special => cases h
  | directory m es =>
    cases h
    exact ⟨.inl rfl, rfl, rfl, id, id, id⟩
  | file m bytes =>
    cases hp : relativeText p with
    | none => simp [collectEntry, hp] at h
    | some text =>
      simp only [collectEntry, hp, ite_error_ok, Except.ok.injEq, not_or, not_lt] at h
      obtain ⟨hnot, -, ⟨hcount, htotal⟩, rfl⟩ := h
      refine ⟨.inr ⟨m, bytes, text, rfl, hp⟩, ?_, rfl, ?_, fun _ => hcount, fun _ => htotal⟩
      · simp [textOf, hp]
      · exact fun hn => List.nodup_cons.mpr ⟨hnot, hn⟩

/-- The collecting loop. -/
theorem collectEntries_ok {l : List (List Name × Tree)} {s s' : CollectedPaths}
    (h : l.foldlM collectEntry s = .ok s') :
    (∀ x ∈ l, Regular x) ∧ s'.paths = (l.filterMap textOf).reverse ++ s.paths ∧
      s'.total = s.total + (l.map bytesOf).sum ∧ (s.paths.Nodup → s'.paths.Nodup) ∧
      (s.paths.length ≤ MAX_BUNDLE_FILES → s'.paths.length ≤ MAX_BUNDLE_FILES) ∧
      (s.total ≤ MAX_BUNDLE_BYTES → s'.total ≤ MAX_BUNDLE_BYTES) := by
  induction l generalizing s with
  | nil =>
    cases h
    exact ⟨nofun, rfl, rfl, id, id, id⟩
  | cons x l ih =>
    rw [List.foldlM_cons] at h
    obtain ⟨s1, h1, h2⟩ := bind_ok h
    obtain ⟨hx, hp1, ht1, hn1, hc1, hb1⟩ := collectEntry_ok h1
    obtain ⟨hl, hp2, ht2, hn2, hc2, hb2⟩ := ih h2
    refine ⟨List.forall_mem_cons.mpr ⟨hx, hl⟩, ?_, ?_, hn2 ∘ hn1, hc2 ∘ hc1, hb2 ∘ hb1⟩
    · rw [hp2, hp1]
      cases hx : textOf x with
      | none => simp [hx]
      | some text => simp [hx]
    · rw [ht2, ht1, List.map_cons, List.sum_cons, Nat.add_assoc]

theorem mapM_ok {ε α β : Type} {f : α → Except ε β} {g : α → β} {l : List α}
    (h : ∀ a ∈ l, f a = .ok (g a)) : l.mapM f = .ok (l.map g) := by
  induction l with
  | nil => rfl
  | cons a l ih =>
    obtain ⟨ha, hl⟩ := List.forall_mem_cons.mp h
    rw [List.mapM_cons, ha, ok_bind, ih hl]
    rfl

/-- What the tool lists: the files under `learnings`, each once and as it is. -/
structure Listing (t : Tree) (files : List LearningFile) : Prop where
  regular : ∀ r s, r ≠ [] → t.at? (learningsName :: r) = some s →
    s.isDirectory = true ∨ ∃ m bytes, s = .file m bytes
  listed : ∀ f ∈ files, ∃ r m bytes, r ≠ [] ∧ f.target? = some (learningsName :: r) ∧
    t.at? (learningsName :: r) = some (.file m bytes) ∧ bytes.length = f.sizeBytes.toNat ∧
    hexDigest c.toBundleCrypto bytes = f.sha256
  complete : ∀ r m bytes, r ≠ [] → t.at? (learningsName :: r) = some (.file m bytes) →
    ∃ f ∈ files, f.target? = some (learningsName :: r)
  distinct : (files.map LearningFile.target?).Nodup
  count : files.length ≤ MAX_BUNDLE_FILES
  total : listedBytes files ≤ MAX_BUNDLE_BYTES

/-- A collected text leads back to its file. -/
theorem target_of_text {names : List Name} (hne : names ≠ []) (hp : ∀ n ∈ names, n.Proper)
    {text : String} (h : relativeText names = some text) :
    (Path.ofText text).names? = some names ∧
      ∀ f : LearningFile, f.path = text → f.target? = some names := by
  obtain ⟨hempty, hpath⟩ := ofText_relativeText hne hp h
  have hnames : (Path.ofText text).names? = some names := by
    rw [hpath]
    exact names_map_normal false false names
  refine ⟨hnames, ?_⟩
  rintro f rfl
  rw [LearningFile.target?, hnames]
  exact if_neg (by simp [hempty, hpath])

theorem readCollected_ok {t : Tree} {names : List Name} {m : Meta} {bytes : Bytes} {text : String}
    (hne : names ≠ []) (hp : ∀ n ∈ names, n.Proper) (h : relativeText names = some text)
    (hat : t.at? names = some (.file m bytes)) :
    readCollected c t text =
      .ok ⟨text, UInt64.ofNat bytes.length, hexDigest c.toBundleCrypto bytes⟩ := by
  rw [readCollected, (target_of_text hne hp h).1, Option.bind_some, hat]

/-- What is read for a text: no error where the text was collected. -/
def listedFile (t : Tree) (text : String) : LearningFile :=
  (readCollected c t text).toOption.getD ⟨"", 0, ""⟩

theorem le_sum_of_mem {l : List Nat} {n : Nat} (h : n ∈ l) : n ≤ l.sum := by
  induction l with
  | nil => cases h
  | cons m l ih =>
    rw [List.sum_cons]
    rcases List.mem_cons.mp h with rfl | h
    · exact Nat.le_add_right _ _
    · exact (ih h).trans (Nat.le_add_left _ _)

theorem textOf_eq_some {x : List Name × Tree} {text : String} (h : textOf x = some text) :
    ∃ m bytes, x.2 = .file m bytes ∧ relativeText x.1 = some text ∧ bytesOf x = bytes.length := by
  obtain ⟨p, t⟩ := x
  cases t with
  | file m bytes => exact ⟨m, bytes, rfl, h, rfl⟩
  | _ => cases h

theorem sum_filterMap {l : List (List Name × Tree)} {w : String → Nat}
    (hr : ∀ x ∈ l, Regular x) (hw : ∀ x ∈ l, ∀ text, textOf x = some text → w text = bytesOf x) :
    ((l.filterMap textOf).map w).sum = (l.map bytesOf).sum := by
  induction l with
  | nil => rfl
  | cons x l ih =>
    obtain ⟨hx, hr⟩ := List.forall_mem_cons.mp hr
    obtain ⟨hwx, hw⟩ := List.forall_mem_cons.mp hw
    rw [List.map_cons, List.sum_cons, ← ih hr hw]
    cases ht : textOf x with
    | some text => simp [ht, hwx text ht]
    | none =>
      have hzero : bytesOf x = 0 := by
        obtain ⟨p, t⟩ := x
        rcases hx with hd | ⟨m, bytes, text, rfl, htext⟩
        · cases t with
          | directory m es => rfl
          | _ => cases hd
        · simp [textOf, htext] at ht
      simp [ht, hzero]

/-- The tool lists what is there. -/
theorem collectFiles_ok {t : Tree} {files : List LearningFile} (hd : t.Distinct) (hn : t.Named)
    (h : collectFiles c t = .ok files) :
    (∃ m es, t.at? [learningsName] = some (.directory m es)) ∧ Listing c t files := by
  unfold collectFiles at h
  split at h
  · cases h
  · rename_i m es hroot
    obtain ⟨s, hs, h⟩ := bind_ok h
    rw [Tree.walk_eq] at hs
    obtain ⟨l, hl⟩ : ∃ l, Tree.order byName [([learningsName], es)] = l := ⟨_, rfl⟩
    rw [hl] at hs
    have hmem : ∀ q u, (q, u) ∈ l ↔ ∃ r, r ≠ [] ∧ q = learningsName :: r ∧ t.at? q = some u := by
      intro q u
      have hperm : l.Perm (Tree.nodes [learningsName] (.directory m es)) := by
        have h := Tree.order_perm byName [([learningsName], es)]
        rwa [hl, List.flatMap_singleton] at h
      rw [hperm.mem_iff, Tree.mem_nodes (Tree.distinct_at hd hroot)]
      refine exists_congr fun r => and_congr_right fun _ => and_congr_right fun hq => ?_
      rw [hq, Tree.at_append, hroot, Option.bind_some]
    obtain ⟨hreg, hpaths, htotal, hnd, hcount, hbytes⟩ := collectEntries_ok hs
    replace hnd := hnd List.nodup_nil
    replace hcount := hcount (Nat.zero_le _)
    replace hbytes := hbytes (Nat.zero_le _)
    rw [List.append_nil] at hpaths
    rw [Nat.zero_add] at htotal
    have hread : ∀ x ∈ l, ∀ text, textOf x = some text → ∃ m bytes, x.2 = .file m bytes ∧
        bytes.length < 2 ^ 64 ∧ (∀ f : LearningFile, f.path = text → f.target? = some x.1) ∧
        readCollected c t text =
          .ok ⟨text, UInt64.ofNat bytes.length, hexDigest c.toBundleCrypto bytes⟩ := by
      rintro ⟨q, u⟩ hx text htext
      obtain ⟨i, bytes, hu, hrel, hlen⟩ := textOf_eq_some htext
      obtain ⟨r, -, hq, hat⟩ := (hmem q u).mp hx
      obtain rfl : u = .file i bytes := hu
      have hne : q ≠ [] := by
        rw [hq]
        exact List.cons_ne_nil _ _
      have hle : bytes.length ≤ MAX_BUNDLE_BYTES := by
        refine le_trans ?_ hbytes
        rw [htotal, ← hlen]
        exact le_sum_of_mem (List.mem_map_of_mem hx)
      refine ⟨i, bytes, rfl, hle.trans_lt (by decide), (target_of_text hne (hn _ _ hat) hrel).2,
        readCollected_ok c hne (hn _ _ hat) hrel hat⟩
    obtain ⟨sorted, hsorted⟩ : ∃ l, s.paths.insertionSort (· ≤ ·) = l := ⟨_, rfl⟩
    have hperm : sorted.Perm (l.filterMap textOf) := by
      have h := List.perm_insertionSort (· ≤ ·) s.paths
      rw [hsorted, hpaths] at h
      exact h.trans (List.reverse_perm _)
    have hmemText : ∀ text, text ∈ sorted ↔ ∃ x ∈ l, textOf x = some text := by
      intro text
      rw [hperm.mem_iff, List.mem_filterMap]
    have hfile : ∀ x ∈ l, ∀ text, textOf x = some text → ∃ m bytes, x.2 = .file m bytes ∧
        (listedFile c t text).target? = some x.1 ∧ (listedFile c t text).sizeBytes.toNat = bytes.length ∧
        (listedFile c t text).sha256 = hexDigest c.toBundleCrypto bytes := by
      intro x hx text htext
      obtain ⟨i, bytes, hu, hlt, htarget, hrun⟩ := hread x hx text htext
      have hlisted : listedFile c t text =
          ⟨text, UInt64.ofNat bytes.length, hexDigest c.toBundleCrypto bytes⟩ := by
        rw [listedFile, hrun]
        rfl
      rw [hlisted]
      exact ⟨i, bytes, hu, htarget _ rfl, UInt64.toNat_ofNat_of_lt hlt, rfl⟩
    have hfiles : files = sorted.map (listedFile c t) := by
      rw [hsorted, mapM_ok (g := listedFile c t)] at h
      · exact (Except.ok.inj h).symm
      · intro text htext
        obtain ⟨x, hx, hxt⟩ := (hmemText text).mp htext
        obtain ⟨i, bytes, -, -, -, hrun⟩ := hread x hx text hxt
        rw [listedFile, hrun]
        rfl
    refine ⟨⟨m, es, hroot⟩, ?_, ?_, ?_, ?_, ?_, ?_⟩
    · intro r u hr hat
      rcases hreg _ ((hmem _ u).mpr ⟨r, hr, rfl, hat⟩) with hdir | ⟨i, bytes, -, hu, -⟩
      · exact .inl hdir
      · exact .inr ⟨i, bytes, hu⟩
    · intro f hf
      rw [hfiles] at hf
      obtain ⟨text, htext, rfl⟩ := List.mem_map.mp hf
      obtain ⟨⟨q, u⟩, hx, hxt⟩ := (hmemText text).mp htext
      obtain ⟨i, bytes, hu, htarget, hlen, hsha⟩ := hfile _ hx text hxt
      obtain ⟨r, hr, rfl, hat⟩ := (hmem q u).mp hx
      obtain rfl : u = .file i bytes := hu
      exact ⟨r, i, bytes, hr, htarget, hat, hlen.symm, hsha.symm⟩
    · intro r i bytes hr hat
      have hx := (hmem _ _).mpr ⟨r, hr, rfl, hat⟩
      rcases hreg _ hx with hdir | ⟨-, -, text, -, htext⟩
      · cases hdir
      · obtain ⟨-, -, -, htarget, -⟩ := hfile _ hx text htext
        refine ⟨listedFile c t text, ?_, htarget⟩
        rw [hfiles]
        exact List.mem_map_of_mem ((hmemText text).mpr ⟨_, hx, htext⟩)
    · have hnd' : sorted.Nodup := by
        rw [← hsorted]
        exact (List.perm_insertionSort (· ≤ ·) s.paths).nodup_iff.mpr hnd
      rw [hfiles, List.map_map]
      refine hnd'.map_on ?_
      intro text₁ h₁ text₂ h₂ heq
      obtain ⟨x, hx, hxt⟩ := (hmemText text₁).mp h₁
      obtain ⟨y, hy, hyt⟩ := (hmemText text₂).mp h₂
      obtain ⟨-, -, -, htx, -⟩ := hfile x hx text₁ hxt
      obtain ⟨-, -, -, hty, -⟩ := hfile y hy text₂ hyt
      have hxy : x.1 = y.1 := Option.some.inj (htx.symm.trans (heq.trans hty))
      obtain ⟨-, -, -, hrx, -⟩ := textOf_eq_some hxt
      obtain ⟨-, -, -, hry, -⟩ := textOf_eq_some hyt
      rw [hxy] at hrx
      exact Option.some.inj (hrx.symm.trans hry)
    · rw [hfiles, List.length_map, ← hsorted, List.length_insertionSort]
      exact hcount
    · have hsum : listedBytes files = (l.map bytesOf).sum := by
        rw [hfiles, listedBytes, List.map_map, (hperm.map _).sum_nat]
        refine sum_filterMap hreg ?_
        intro x hx text hxt
        obtain ⟨i, bytes, hu, -, hlen, -⟩ := hfile x hx text hxt
        obtain ⟨i', bytes', hu', -, hlen'⟩ := textOf_eq_some hxt
        cases hu.symm.trans hu'
        exact hlen.trans hlen'.symm
      rw [hsum, ← htotal]
      exact hbytes
  · cases h

/-! ## What is signed -/

/-- A bundle with its manifest, before its modes are changed. -/
def written (m : Meta) (learnings : Tree) (bytes : Bytes) : Tree :=
  .directory m
    [(.text "manifest.json", .file ⟨1, true, true⟩ bytes), (learningsName, learnings)]

theorem written_at {m : Meta} {learnings : Tree} {bytes : Bytes} {p : List Name} {s : Tree} :
    (written m learnings bytes).at? p = some s ↔
      p = [] ∧ s = written m learnings bytes ∨
      p = manifestName ∧ s = .file ⟨1, true, true⟩ bytes ∨
      ∃ r, p = learningsName :: r ∧ learnings.at? r = some s := by
  cases p with
  | nil => simp [Tree.at?, manifestName, eq_comm]
  | cons n r =>
    by_cases hm : n = .text "manifest.json"
    · subst hm
      cases r with
      | nil => simp [Tree.at?, Tree.entries, written, manifestName, learningsName, eq_comm]
      | cons k r => simp [Tree.at?, Tree.entries, written, manifestName, learningsName]
    · by_cases hl : n = learningsName
      · subst hl
        have h1 : (Name.text "learnings" == Name.text "manifest.json") = false := by decide
        simp [Tree.at?, Tree.entries, written, manifestName, learningsName, List.lookup_cons, h1]
      · have h1 : (n == Name.text "manifest.json") = false := beq_false_of_ne hm
        have h2 : (n == learningsName) = false := beq_false_of_ne hl
        simp [Tree.at?, Tree.entries, written, manifestName, hm, hl, List.lookup_cons, h1, h2]

theorem written_distinct {m : Meta} {learnings : Tree} (bytes : Bytes) (h : learnings.Distinct) :
    (written m learnings bytes).Distinct :=
  ⟨by simp [learningsName], trivial, h, trivial⟩

theorem foldlM_unit {ε α : Type} {f : Unit → α → Except ε Unit} {l : List α} :
    l.foldlM f () = .ok () ↔ ∀ x ∈ l, f () x = .ok () := by
  induction l with
  | nil => exact ⟨fun _ => nofun, fun _ => rfl⟩
  | cons x l ih =>
    rw [List.foldlM_cons, List.forall_mem_cons, ← ih]
    exact check_ok

/-- Every mode the tool sets is one it may set. -/
theorem makeBundleReadOnly_ok {privileged : Bool} {t t' : Tree} (hd : t.Distinct)
    (hdir : t.isDirectory = true) (h : makeBundleReadOnly privileged t = .ok t') :
    t' = t.readOnly ∧ ∀ p s, t.at? p = some s → changeable privileged s = true := by
  obtain ⟨u, hu, h⟩ := bind_ok h
  rw [Tree.walk_eq, foldlM_unit] at hu
  split at h
  · rename_i hall
    cases h
    refine ⟨rfl, fun p s hs => ?_⟩
    have hmem : p = [] ∧ s = t ∨ (p, s) ∈ t.nodes [] := by
      by_cases hp : p = []
      · subst hp
        exact .inl ⟨rfl, (Option.some.inj hs).symm⟩
      · exact .inr ((Tree.mem_nodes hd).mpr ⟨p, hp, rfl, hs⟩)
    rw [List.all_cons, Bool.and_eq_true, List.all_eq_true] at hall
    rcases hmem with ⟨rfl, rfl⟩ | hmem
    · simpa [hdir] using hall.1
    · have hwalk : (p, s) ∈ Tree.order .asRead [([], t.entries)] := by
        have hperm := Tree.order_perm .asRead [([], t.entries)]
        rw [List.flatMap_singleton] at hperm
        rw [hperm.mem_iff]
        cases t with
        | directory m es => exact hmem
        | _ => cases hdir
      have hentry := hu _ hwalk
      cases s with
      | directory m es => simpa [Tree.isDirectory] using hall.2 _ hmem
      | file m bytes =>
        simp only [chmodEntry] at hentry
        split at hentry
        · assumption
        · cases hentry
      | symlink => rfl
      | special => rfl
  · cases h

/-- What the tool leaves behind when it has signed. -/
structure Built (privileged : Bool) (m : Meta) (learnings : Tree) (key : Key) (out : SignedBundle) :
    Prop where
  directory : learnings.isDirectory = true
  listing : Listing c (.directory m [(learningsName, learnings)]) out.manifest.files
  nonempty : out.manifest.files ≠ []
  bundleVersion : out.manifest.bundleVersion ≠ ""
  skillVersion : out.manifest.skillVersion = SUPPORTED_SKILL_VERSION
  runtimeVersion : out.manifest.localEgoBrowserRuntimeVersion = SUPPORTED_LOCAL_RUNTIME_VERSION
  protocol : out.manifest.protocolVersions = [PROTOCOL_VERSION]
  signed : SignedBy c.toBundleCrypto (c.publicKey key) out.manifest
  tree : out.tree = (written m learnings (prettyManifest out.manifest)).readOnly
  allowed : ∀ p s, (written m learnings (prettyManifest out.manifest)).at? p = some s →
    changeable privileged s = true

theorem validateToken_ok {value label : String} (h : validateToken value label = .ok ()) :
    value ≠ "" := by
  rintro rfl
  simp [validateToken] at h

theorem signBundle_ok (hc : c.Lawful) {privileged io : Bool} {root : Root} {m : Meta}
    {learnings : Tree} {key : Key} {bundleVersion signingKeyId : String} {out : SignedBundle}
    (hroot : root.tree = some (.directory m [(learningsName, learnings)]))
    (hd : learnings.Distinct) (hn : learnings.Named)
    (h : signBundle c privileged io root key bundleVersion signingKeyId = .ok out) :
    (root.path.absolute = true ∧ root.symlinked = false ∧ root.canonical = true) ∧
      Built c privileged m learnings key out ∧ out.manifest.bundleVersion = bundleVersion := by
  obtain ⟨t, ht, h⟩ := bind_ok h
  obtain ⟨unsigned, hu, h⟩ := bind_ok h
  simp only [canonicalBundleRoot, hroot, ite_error_ok, Except.ok.injEq] at ht
  obtain ⟨habs, hlink, hcan, -, rfl⟩ := ht
  obtain ⟨hversion, hu⟩ := check_ok.mp hu
  obtain ⟨-, hu⟩ := check_ok.mp hu
  obtain ⟨files, hfiles, hu⟩ := bind_ok hu
  rw [ite_error_ok] at hu
  obtain ⟨hne, hu⟩ := hu
  cases hu
  simp only at h
  rw [ite_error_ok] at h
  obtain ⟨-, h⟩ := h
  obtain ⟨w, hw, h⟩ := bind_ok h
  obtain ⟨tree, htree, h⟩ := bind_ok h
  cases h
  simp only [atomicWrite] at hw
  split at hw
  · cases hw
    have hdt : (Tree.directory m [(learningsName, learnings)]).Distinct :=
      ⟨List.nodup_singleton _, hd, trivial⟩
    have hnt : (Tree.directory m [(learningsName, learnings)]).Named := by
      intro p s hs n hnp
      cases p with
      | nil => cases hnp
      | cons k r =>
        by_cases hk : k = learningsName
        · subst hk
          have hs' : learnings.at? r = some s := by simpa [Tree.at?, Tree.entries] using hs
          rcases List.mem_cons.mp hnp with rfl | hnp
          · exact ⟨by decide, by decide, by decide, by decide⟩
          · exact hn r s hs' n hnp
        · have h2 : (k == learningsName) = false := beq_false_of_ne hk
          simp [Tree.at?, Tree.entries, List.lookup_cons, h2] at hs
    obtain ⟨⟨i, es, hat⟩, hlisting⟩ := collectFiles_ok c hdt hnt hfiles
    obtain ⟨htree, hchange⟩ := makeBundleReadOnly_ok (written_distinct _ hd) rfl htree
    refine ⟨⟨by simpa using habs, by simpa using hlink, by simpa using hcan⟩,
      ⟨?_, hlisting, hne, validateToken_ok hversion, rfl, rfl, rfl, ?_, htree, hchange⟩, rfl⟩
    · have hl : learnings = .directory i es := by simpa [Tree.at?, Tree.entries] using hat
      rw [hl]
      rfl
    · exact ⟨hc.verifyingKey key, _, hc.decode_encode _, hc.sign_length _ _, hc.verify_sign _ _⟩
  · cases hw

/-- The bundles that the tool signs and verification accepts. -/
structure Verifiable (privileged : Bool) (m : Meta) (learnings : Tree)
    (manifest : LearningBundleManifest) : Prop where
  /-- Below every directory there is a file. -/
  filled : ∀ p s, learnings.at? p = some s → s.isDirectory = true →
    ∃ r i bytes, learnings.at? (p ++ r) = some (.file i bytes)
  /-- No file has a second link. -/
  single : ∀ p i bytes, learnings.at? p = some (.file i bytes) → i.links = 1
  /-- Only a privileged caller can seal what another user owns. -/
  owned : privileged = true → m.owned = true ∧ ∀ p s, learnings.at? p = some s →
    changeable false s = true
  size : (prettyManifest manifest).length ≤ MAX_MANIFEST_BYTES

section Sealing

variable {c}
variable {privileged : Bool} {m : Meta} {learnings : Tree} {key : Key} {out : SignedBundle}

theorem Built.manifest_ok (hb : Built c privileged m learnings key out) :
    SignedManifest c.toBundleCrypto (c.publicKey key) (prettyManifest out.manifest) out.manifest ↔
      (prettyManifest out.manifest).length ≤ MAX_MANIFEST_BYTES := by
  refine ⟨fun h => h.size, fun hsize => ?_⟩
  refine ⟨hsize, parse_prettyManifest _, hb.signed, ?_, hb.bundleVersion, ?_, ?_, hb.nonempty,
    hb.listing.count, ?_, hb.listing.distinct, hb.listing.total⟩
  · rw [hb.protocol]
    exact List.mem_singleton.mpr rfl
  · rw [hb.skillVersion]
    decide
  · rw [hb.runtimeVersion]
    decide
  · intro f hf hnone
    obtain ⟨r, i, bytes, -, htarget, -⟩ := hb.listing.listed f hf
    rw [hnone] at htarget
    cases htarget

theorem isDirectory_readOnly (t : Tree) : t.readOnly.isDirectory = t.isDirectory := by
  cases t with
  | _ => rfl

/-- What is in the bundle once it is signed. -/
theorem Built.at (hb : Built c privileged m learnings key out) {p : List Name} {s : Tree} :
    out.tree.at? p = some s ↔
      ∃ u, s = u.readOnly ∧ (written m learnings (prettyManifest out.manifest)).at? p = some u := by
  rw [hb.tree, Tree.readOnly_at, Option.map_eq_some_iff]
  exact exists_congr fun u => ⟨fun h => ⟨h.2.symm, h.1⟩, fun h => ⟨h.2, h.1.symm⟩⟩

theorem Built.at_learnings (hb : Built c privileged m learnings key out) {r : List Name} {s : Tree} :
    out.tree.at? (learningsName :: r) = some s ↔ ∃ u, s = u.readOnly ∧ learnings.at? r = some u := by
  rw [hb.at]
  refine exists_congr fun u => and_congr_right fun _ => ?_
  rw [written_at]
  simp [manifestName, learningsName]

theorem at_root_learnings (m : Meta) (learnings : Tree) (r : List Name) :
    (Tree.directory m [(learningsName, learnings)]).at? (learningsName :: r) = learnings.at? r := by
  simp [Tree.at?, Tree.entries]

theorem clean_readOnly {s : Tree} :
    Clean s.readOnly ↔ changeable false s = true ∧ s.isSymlink = false ∧ s ≠ .special ∧
      ∀ i bytes, s = .file i bytes → i.links = 1 := by
  cases s with
  | file i bytes => simp [Tree.readOnly, Clean, Sealed, changeable, Tree.isSymlink]
  | directory i es => simp [Tree.readOnly, Clean, Sealed, changeable, Tree.isSymlink]
  | symlink => simp [Tree.readOnly, Clean, Tree.isSymlink]
  | special => simp [Tree.readOnly, Clean]

/-- The tree left behind is the one its manifest describes where every directory is filled, every
file has one link, and everything has the caller as its owner. -/
theorem Built.sealed (hb : Built c privileged m learnings key out)
    (hfilled : ∀ p s, learnings.at? p = some s → s.isDirectory = true →
      ∃ r i bytes, learnings.at? (p ++ r) = some (.file i bytes))
    (hsingle : ∀ p i bytes, learnings.at? p = some (.file i bytes) → i.links = 1)
    (howned : m.owned = true ∧ ∀ p s, learnings.at? p = some s → changeable false s = true) :
    SealedTree c.toBundleCrypto (prettyManifest out.manifest) out.manifest out.tree where
  root := by
    rw [hb.tree]
    rfl
  clean := by
    intro p s hs
    obtain ⟨u, rfl, hu⟩ := hb.at.mp hs
    rw [clean_readOnly]
    rcases written_at.mp hu with ⟨-, rfl⟩ | ⟨-, rfl⟩ | ⟨r, rfl, hr⟩
    · simp [written, changeable, Tree.isSymlink, howned.1]
    · simp [changeable, Tree.isSymlink]
    · refine ⟨howned.2 r u hr, ?_⟩
      have hreg : u.isDirectory = true ∨ ∃ i bytes, u = .file i bytes := by
        cases r with
        | nil =>
          cases hr
          exact .inl hb.directory
        | cons n r =>
          refine hb.listing.regular (n :: r) u (List.cons_ne_nil _ _) ?_
          rw [at_root_learnings]
          exact hr
      rcases hreg with hdir | ⟨i, bytes, rfl⟩
      · cases u with
        | directory i es => exact ⟨rfl, nofun, nofun⟩
        | _ => cases hdir
      · refine ⟨rfl, nofun, ?_⟩
        rintro j b ⟨⟩
        exact hsingle r i bytes hr
  manifest := by
    refine ⟨{ links := 1, owned := true, writable := false }, hb.at.mpr ⟨_, ?_, written_at.mpr
      (.inr (.inl ⟨rfl, rfl⟩))⟩⟩
    rfl
  listed := by
    intro f hf p hp
    obtain ⟨r, i, bytes, hr, htarget, hat, hlen, hsha⟩ := hb.listing.listed f hf
    cases htarget.symm.trans hp
    rw [at_root_learnings] at hat
    exact ⟨by simp [manifestName, learningsName], _, bytes, hb.at_learnings.mpr ⟨_, rfl, hat⟩, hlen,
      hsha⟩
  only := by
    intro p i content hs
    obtain ⟨u, he, hu⟩ := hb.at.mp hs
    rcases written_at.mp hu with ⟨-, rfl⟩ | ⟨rfl, -⟩ | ⟨r, rfl, hr⟩
    · cases he
    · exact .inl rfl
    · cases u with
      | file j b =>
        have hne : r ≠ [] := by
          rintro rfl
          cases hr
          cases hb.directory
        refine .inr (hb.listing.complete r j b hne ?_)
        rw [at_root_learnings]
        exact hr
      | _ => cases he
  directories := by
    intro p s hp hs hdir
    obtain ⟨u, rfl, hu⟩ := hb.at.mp hs
    rw [isDirectory_readOnly] at hdir
    rcases written_at.mp hu with ⟨rfl, -⟩ | ⟨-, rfl⟩ | ⟨r, rfl, hr⟩
    · exact absurd rfl hp
    · cases hdir
    · obtain ⟨r', j, b, hfile⟩ := hfilled r u hr hdir
      have hne : r' ≠ [] := by
        rintro rfl
        rw [List.append_nil, hr] at hfile
        cases hfile
        cases hdir
      obtain ⟨f, hf, htarget⟩ := hb.listing.complete (r ++ r') j b (by simp [hne]) (by
        rw [at_root_learnings]
        exact hfile)
      exact ⟨f, hf, r', hne, htarget⟩

/-- When verification accepts what the tool has signed. -/
theorem Built.verified_iff (hb : Built c privileged m learnings key out) (hd : learnings.Distinct)
    {root : Root} (habs : root.path.absolute = true) (hlink : root.symlinked = false)
    (hcan : root.canonical = true) {v : VerifiedLearningBundle} :
    verifyLearningBundleDetails c.toBundleCrypto (root.holding out.tree)
        (c.publicKey key) = .ok v ↔
      Verifiable privileged m learnings out.manifest ∧
        v = details c.toBundleCrypto root out.manifest := by
  have hdt : out.tree.Distinct := by
    rw [hb.tree]
    exact Tree.distinct_readOnly (written_distinct _ hd)
  have hroot : (root.holding out.tree).tree = some out.tree := rfl
  rw [@verify_ok_iff c.toBundleCrypto (root.holding out.tree) _ _ _ habs hlink hcan hroot hdt]
  constructor
  · rintro ⟨bytes, m', hm, hs, rfl⟩
    obtain ⟨i, hman⟩ := hs.manifest
    have hbytes : bytes = prettyManifest out.manifest := by
      obtain ⟨u, he, hu⟩ := hb.at.mp hman
      rcases written_at.mp hu with ⟨hp, -⟩ | ⟨-, rfl⟩ | ⟨r, hp, -⟩
      · cases hp
      · exact (Tree.file.inj he).2
      · simp [manifestName, learningsName] at hp
    subst hbytes
    have hm' : out.manifest = m' := Except.ok.inj ((parse_prettyManifest _).symm.trans hm.strict)
    subst hm'
    have hclean : ∀ p u, learnings.at? p = some u → Clean u.readOnly := fun p u hu =>
      hs.clean _ _ (hb.at_learnings.mpr ⟨u, rfl, hu⟩)
    refine ⟨⟨?_, ?_, ?_, hm.size⟩, rfl⟩
    · intro p u hu hdir
      obtain ⟨f, hf, r, -, htarget⟩ := hs.directories (learningsName :: p) _ (List.cons_ne_nil _ _)
        (hb.at_learnings.mpr ⟨u, rfl, hu⟩) ((isDirectory_readOnly u).trans hdir)
      obtain ⟨-, j, b, hat, -⟩ := hs.listed f hf _ htarget
      obtain ⟨u', he, hu'⟩ := hb.at_learnings.mp hat
      cases u' with
      | file k b' => exact ⟨r, k, b', hu'⟩
      | _ => cases he
    · intro p j b hu
      exact (clean_readOnly.mp (hclean p _ hu)).2.2.2 j b rfl
    · refine fun _ => ⟨?_, fun p u hu => (clean_readOnly.mp (hclean p u hu)).1⟩
      have hroot := hs.clean [] _ (hb.at.mpr ⟨_, rfl, rfl⟩)
      simpa [written, changeable] using (clean_readOnly.mp hroot).1
  · rintro ⟨hv, rfl⟩
    have howned : m.owned = true ∧ ∀ p s, learnings.at? p = some s → changeable false s = true := by
      cases privileged with
      | true => exact hv.owned rfl
      | false =>
        refine ⟨?_, fun p s hs => ?_⟩
        · simpa [written, changeable] using hb.allowed [] _ rfl
        · exact hb.allowed (learningsName :: p) s (written_at.mpr (.inr (.inr ⟨p, rfl, hs⟩)))
    exact ⟨_, _, hb.manifest_ok.mpr hv.size, hb.sealed hv.filled hv.single howned, rfl⟩

end Sealing

/-- The tool's own verification at its end passes exactly the bundles whose directories are filled,
whose files have one link, and whose manifest is small; a bundle it signs otherwise is refused. -/
theorem sign_verify_iff (hc : c.Lawful) {root : Root} {m : Meta} {learnings : Tree}
    (hroot : root.tree = some (.directory m [(learningsName, learnings)]))
    (hd : learnings.Distinct) (hn : learnings.Named) (privileged io : Bool) (key : Key)
    (bundleVersion signingKeyId : String) :
    (∀ out, signBundle c privileged io root key bundleVersion signingKeyId = .ok out →
      ((∃ v, verifyLearningBundleDetails c.toBundleCrypto (root.holding out.tree)
        (c.publicKey key) = .ok v) ↔ Verifiable privileged m learnings out.manifest) ∧
      ∀ v, verifyLearningBundleDetails c.toBundleCrypto (root.holding out.tree)
        (c.publicKey key) = .ok v →
          v = details c.toBundleCrypto root out.manifest ∧ v.bundleVersion = bundleVersion ∧
          v.skillVersion = SUPPORTED_SKILL_VERSION ∧
          v.localEgoBrowserRuntimeVersion = SUPPORTED_LOCAL_RUNTIME_VERSION) ∧
    ∀ out digest, signCommand c privileged io root key bundleVersion signingKeyId = .ok (out, digest) →
      signBundle c privileged io root key bundleVersion signingKeyId = .ok out ∧
      ∃ v, verifyLearningBundleDetails c.toBundleCrypto (root.holding out.tree)
        (c.publicKey key) = .ok v ∧ v.digest = digest := by
  constructor
  · intro out hout
    obtain ⟨⟨habs, hlink, hcan⟩, hb, hversion⟩ := signBundle_ok c hc hroot hd hn hout
    have hiff : ∀ v, verifyLearningBundleDetails c.toBundleCrypto (root.holding out.tree)
        (c.publicKey key) = .ok v ↔ Verifiable privileged m learnings out.manifest ∧
          v = details c.toBundleCrypto root out.manifest :=
      fun v => hb.verified_iff hd habs hlink hcan
    refine ⟨⟨?_, fun hv => ⟨_, (hiff _).mpr ⟨hv, rfl⟩⟩⟩, ?_⟩
    · rintro ⟨v, hv⟩
      exact ((hiff v).mp hv).1
    · intro v hv
      obtain ⟨-, rfl⟩ := (hiff v).mp hv
      exact ⟨rfl, hversion, hb.skillVersion, hb.runtimeVersion⟩
  · intro out digest h
    obtain ⟨out', hout, h⟩ := bind_ok h
    split at h
    · cases h
    · rename_i d hverify
      cases h
      obtain ⟨v, hv, h⟩ := bind_ok hverify
      rw [ite_error_ok] at h
      exact ⟨hout, v, hv, Except.ok.inj h.2⟩

end Tool

/-! ## Two bundles -/

theorem toOption_eq_some {ε α : Type} {x : Except ε α} {a : α} (h : x.toOption = some a) :
    x = .ok a := by
  cases x with
  | error e => cases h
  | ok b =>
    cases h
    rfl

def sampleSecret : Key where
  bytes :=
    [157, 97, 177, 157, 239, 253, 90, 96, 186, 132, 74, 244, 146, 236, 44, 196, 68, 73, 197, 105,
      123, 50, 105, 25, 112, 59, 172, 3, 28, 174, 127, 96]
  length_eq := rfl

/-- The signature over the manifest of the example, and no real one over anything else. -/
def sampleSign (key message : Bytes) : Bytes :=
  if key = samplePublicKey ∧ message = sampleManifest.signedBytes then sampleSignature
  else List.replicate 64 0

def sampleSigner : Signer where
  sha256 := sampleCrypto.sha256
  decode text :=
    if text = sampleManifest.signature then some sampleSignature else Base64.decode text.toList
  verifyingKey _ := true
  verify key message signature := signature = sampleSign key message
  encode bytes :=
    if bytes = sampleSignature then sampleManifest.signature else String.ofList (Base64.encode bytes)
  publicKey key := if key = sampleSecret then samplePublicKey else key.bytes
  sign key message := sampleSign (if key = sampleSecret then samplePublicKey else key.bytes) message

theorem sampleSign_length (key message : Bytes) : (sampleSign key message).length = 64 := by
  unfold sampleSign
  split
  · rfl
  · exact List.length_replicate

theorem sampleSigner_lawful : sampleSigner.Lawful where
  decode_encode := by
    intro bytes
    simp only [sampleSigner]
    by_cases hb : bytes = sampleSignature
    · rw [if_pos hb, if_pos rfl, hb]
    · rw [if_neg hb, if_neg, String.toList_ofList, Base64.decode_encode]
      intro he
      have hdec := Base64.decode_encode bytes
      have hnone : Base64.decode sampleManifest.signature.toList = none := by decide +kernel
      rw [← he, String.toList_ofList, hdec] at hnone
      cases hnone
  verifyingKey _ := rfl
  sign_length := fun key message => sampleSign_length _ message
  verify_sign := fun key message => decide_eq_true rfl

/-- A note, and what else lies beside it. -/
def noteDirectory (beside : List (Name × Tree)) : Tree :=
  .directory ⟨2, true, true⟩ ((.text "note.md", .file ⟨1, true, true⟩ sampleNote) :: beside)

def unsignedRoot (beside : List (Name × Tree)) : Root :=
  ⟨.ofText "/opt/ego-browser/bundle", false, true,
    some (.directory ⟨3, true, true⟩ [(learningsName, noteDirectory beside)])⟩

theorem validateToken_sample : validateToken "2026.09.1" "bundle version" = .ok () ∧
    validateToken "test" "signing key ID" = .ok () := by
  decide +kernel

def unsignedManifest : LearningBundleManifest := { sampleManifest with signature := "" }

/-- The signature member is not signed. -/
theorem signedBytes_unsigned : unsignedManifest.signedBytes = sampleManifest.signedBytes :=
  congrArg (fun ms => canonicalJson (.obj ms))
    (by simp [unsignedManifest, LearningBundleManifest.members])

/-- Both bundles list the note alone, so the same manifest is signed. -/
theorem signBundle_sample {beside : List (Name × Tree)} (hd : (noteDirectory beside).Distinct)
    (hfiles : (collectFiles sampleSigner (.directory ⟨3, true, true⟩
      [(learningsName, noteDirectory beside)])).toOption = some sampleManifest.files)
    (hmodes : (makeBundleReadOnly false (written ⟨3, true, true⟩ (noteDirectory beside)
      (prettyManifest sampleManifest))).toOption.isSome = true) :
    signBundle sampleSigner false true (unsignedRoot beside) sampleSecret "2026.09.1" "test" =
      .ok ⟨sampleManifest, (written ⟨3, true, true⟩ (noteDirectory beside)
        (prettyManifest sampleManifest)).readOnly⟩ := by
  have hroot : canonicalBundleRoot (unsignedRoot beside) =
      .ok (.directory ⟨3, true, true⟩ [(learningsName, noteDirectory beside)]) := by
    have habs : (unsignedRoot beside).path.absolute = true := rfl
    simp [canonicalBundleRoot, habs]
    rfl
  have hbuild : buildManifest sampleSigner
      (.directory ⟨3, true, true⟩ [(learningsName, noteDirectory beside)]) "2026.09.1" "test" =
        .ok unsignedManifest := by
    rw [buildManifest, validateToken_sample.1, ok_bind, validateToken_sample.2, ok_bind,
      toOption_eq_some hfiles, ok_bind, if_neg (by decide)]
    rfl
  have hsignature : sampleSigner.encode (sampleSigner.sign sampleSecret
      unsignedManifest.signedBytes) = sampleManifest.signature := by
    rw [signedBytes_unsigned]
    simp [sampleSigner, sampleSign]
  have hwrite : atomicWrite true (.directory ⟨3, true, true⟩ [(learningsName, noteDirectory beside)])
      (prettyManifest sampleManifest) = .ok (written ⟨3, true, true⟩ (noteDirectory beside)
        (prettyManifest sampleManifest)) := rfl
  obtain ⟨tree, htree⟩ := Option.isSome_iff_exists.mp hmodes
  have hseal := toOption_eq_some htree
  obtain ⟨rfl, -⟩ := makeBundleReadOnly_ok (written_distinct _ hd) rfl hseal
  have hmanifest : { unsignedManifest with signature := sampleManifest.signature } =
      sampleManifest := rfl
  rw [signBundle, hroot, ok_bind, hbuild, ok_bind]
  simp only [hsignature, hmanifest]
  have hnone : (Tree.directory ⟨3, true, true⟩ [(learningsName, noteDirectory beside)]).at?
      manifestName = none := rfl
  rw [hnone, if_neg (by decide), hwrite, ok_bind, hseal, ok_bind]

theorem noteDirectory_distinct : (noteDirectory []).Distinct := ⟨by decide, trivial, trivial⟩

theorem noteDirectory_at {p : List Name} {s : Tree} (h : (noteDirectory []).at? p = some s) :
    p = [] ∧ s = noteDirectory [] ∨
    p = [.text "note.md"] ∧ s = .file ⟨1, true, true⟩ sampleNote := by
  by_cases hp : p = []
  · subst hp
    cases h
    exact .inl ⟨rfl, rfl⟩
  · have hm := (Tree.mem_nodes noteDirectory_distinct (p := [])).mpr ⟨p, hp, rfl, h⟩
    exact .inr (by simpa [noteDirectory, Tree.nodes, Tree.nodes.nodesAll] using hm)

theorem noteDirectory_named : (noteDirectory []).Named := by
  intro p s h n hn
  rcases noteDirectory_at h with ⟨rfl, -⟩ | ⟨rfl, -⟩
  · cases hn
  · rw [List.mem_singleton.mp hn]
    exact ⟨by decide, by decide, by decide, by decide⟩

theorem note_verifiable : Verifiable false ⟨3, true, true⟩ (noteDirectory []) sampleManifest where
  filled := by
    intro p s h hd
    rcases noteDirectory_at h with ⟨rfl, -⟩ | ⟨-, rfl⟩
    · exact ⟨[.text "note.md"], _, _, rfl⟩
    · cases hd
  single := by
    intro p i bytes h
    rcases noteDirectory_at h with ⟨-, hs⟩ | ⟨-, hs⟩
    · cases hs
    · cases hs
      rfl
  owned := nofun
  size := sample_size

/-- A bundle with one note is signed, and verification accepts it. -/
theorem note_signed : ∃ out v,
    signBundle sampleSigner false true (unsignedRoot []) sampleSecret "2026.09.1" "test" = .ok out ∧
    verifyLearningBundleDetails sampleSigner.toBundleCrypto
      ((unsignedRoot []).holding out.tree) (sampleSigner.publicKey sampleSecret) = .ok v := by
  have hout := signBundle_sample noteDirectory_distinct (by decide +kernel) (by decide +kernel)
  obtain ⟨hiff, -⟩ := (sign_verify_iff sampleSigner sampleSigner_lawful rfl noteDirectory_distinct
    noteDirectory_named false true sampleSecret "2026.09.1" "test").1 _ hout
  obtain ⟨v, hv⟩ := hiff.mpr note_verifiable
  exact ⟨_, v, hout, hv⟩

def emptyBeside : List (Name × Tree) := [(.text "empty", .directory ⟨2, true, true⟩ [])]

/-- With an empty directory beside the note, the bundle is signed and verification rejects it. -/
theorem empty_directory_signed : ¬ ∀ out,
    signBundle sampleSigner false true (unsignedRoot emptyBeside) sampleSecret "2026.09.1" "test" =
        .ok out →
      ∃ v, verifyLearningBundleDetails sampleSigner.toBundleCrypto
        ((unsignedRoot emptyBeside).holding out.tree)
        (sampleSigner.publicKey sampleSecret) = .ok v := by
  have hd : (noteDirectory emptyBeside).Distinct :=
    ⟨by decide, trivial, ⟨by decide, trivial⟩, trivial⟩
  have hn : (noteDirectory emptyBeside).Named := by
    intro p s h n hn
    by_cases hp : p = []
    · rw [hp] at hn
      cases hn
    · have hm := (Tree.mem_nodes hd (p := [])).mpr ⟨p, hp, rfl, h⟩
      have hcases : p = [.text "note.md"] ∨ p = [.text "empty"] := by
        simp [noteDirectory, emptyBeside, Tree.nodes, Tree.nodes.nodesAll] at hm
        tauto
      rcases hcases with rfl | rfl
      · rw [List.mem_singleton.mp hn]
        exact ⟨by decide, by decide, by decide, by decide⟩
      · rw [List.mem_singleton.mp hn]
        exact ⟨by decide, by decide, by decide, by decide⟩
  have hout := signBundle_sample hd (by decide +kernel) (by decide +kernel)
  intro h
  obtain ⟨v, hv⟩ := h _ hout
  obtain ⟨⟨habs, hlink, hcan⟩, hb, -⟩ := signBundle_ok sampleSigner sampleSigner_lawful rfl hd hn hout
  have hfilled := ((hb.verified_iff hd habs hlink hcan).mp hv).1.filled
  have hname : (Name.text "empty" == Name.text "note.md") = false := by decide
  have hempty : (noteDirectory emptyBeside).at? [.text "empty"] =
      some (.directory ⟨2, true, true⟩ []) := by
    simp [noteDirectory, emptyBeside, Tree.at?, Tree.entries, List.lookup_cons, hname]
  obtain ⟨r, i, bytes, hat⟩ := hfilled _ _ hempty rfl
  rw [Tree.at_append, hempty, Option.bind_some] at hat
  cases r with
  | nil => cases hat
  | cons n r => simp [Tree.at?, Tree.entries] at hat

end Protocol
end EgoBridge
