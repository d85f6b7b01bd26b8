import EgoBridge.Lib.Utf8
import EgoBridge.Protocol.Types
import Mathlib.Data.List.Nodup

/-!
# Scripts.ExtractBundle

`extract-learning-bundle.py`: the archive of a learning bundle is validated member by member and
then extracted into a new directory.

An archive is the list of its members as `tarfile` reads them, a name the bytes it stands for. A
path of the tree is relative to the output directory, whose own path is empty; two paths are one
where their bytes are. The umask leaves an owner's permissions as they are.

* `memberPath`    — the components of a member's name, the archive's root first.
* `extract`       — validates, extracts and verifies, or removes what it has written.
* `extract_exact` — what the tree of an accepted archive is, and what becomes of one that is not.
-/

namespace EgoBridge
namespace Scripts

open Protocol (bind_ok ite_error_ok)

def MAX_EXPANDED_BYTES : Int := 256 * 1024 * 1024
def MAX_MEMBER_BYTES : Int := 64 * 1024 * 1024
def MAX_MEMBERS : Nat := 4096
def ROOT_NAME : Bytes := utf8 "learning-bundle"

/-! ## Archives -/

inductive MemberType where
  | file
  | directory
  | link
  | special
  deriving DecidableEq

/-- `content`: what can be read of a regular member, which may be less than its size says. -/
structure TarInfo where
  name : Bytes
  type : MemberType
  size : Int
  content : Bytes

abbrev Parts := List Bytes

inductive ExtractError where
  | unsafePath
  | tooManyMembers
  | duplicatePath
  | linkOrSpecialFile
  | oversizedMember
  | expandsBeyondLimit
  | missingRequiredTree
  | manifestNotRegular
  | learningsNotDirectory
  | collidesWithFile
  | duplicateDestination
  | truncatedMember
  | incomplete
  | unsafeEntry
  | writable
  | os
  deriving DecidableEq

/-! ## Names -/

/-- `PurePosixPath(name).parts`. -/
def purePosixParts (name : Bytes) : Parts :=
  let names := (name.splitOn 0x2f).filter fun part => part ≠ [] ∧ part ≠ utf8 "."
  match name with
  | 0x2f :: 0x2f :: 0x2f :: _ => utf8 "/" :: names
  | 0x2f :: 0x2f :: _ => utf8 "//" :: names
  | 0x2f :: _ => utf8 "/" :: names
  | _ => names

/-- A strict relative path below the required archive root. -/
def memberPath (name : Bytes) : Except ExtractError Parts :=
  if name = [] ∨ 0 ∈ name ∨ 0x5c ∈ name then .error .unsafePath
  else
    let trimmed := if name.getLast? = some 0x2f then name.dropLast else name
    let parts := purePosixParts trimmed
    if parts = [] ∨ parts.head? ≠ some ROOT_NAME ∨
        (∃ part ∈ parts, part = [] ∨ part = utf8 "." ∨ part = utf8 "..") ∨
        [0x2f].intercalate parts ≠ trimmed then
      .error .unsafePath
    else .ok parts

/-! ## Validation -/

/-- The loop of `validate_members`, with the paths it has seen. -/
def validateLoop (seen : List Parts) (expanded : Int) :
    List TarInfo → Except ExtractError (List (TarInfo × Parts))
  | [] => .ok []
  | member :: rest => do
    if MAX_MEMBERS ≤ seen.length then .error .tooManyMembers
    else
      let parts ← memberPath member.name
      if parts ∈ seen then .error .duplicatePath
      else if ¬ (member.type = .directory ∨ member.type = .file) then .error .linkOrSpecialFile
      else if member.size < 0 ∨ MAX_MEMBER_BYTES < member.size then .error .oversizedMember
      else if MAX_EXPANDED_BYTES < expanded + member.size then .error .expandsBeyondLimit
      else
        let members ← validateLoop (parts :: seen) (expanded + member.size) rest
        .ok ((member, parts) :: members)

def manifestParts : Parts := [ROOT_NAME, utf8 "manifest.json"]

def learningsParts : Parts := [ROOT_NAME, utf8 "learnings"]

/-- Validate member types, names, count, and expanded size before writing. -/
def validateMembers (archive : List TarInfo) :
    Except ExtractError (List (TarInfo × Parts)) := do
  let members ← validateLoop [] 0 archive
  let seen := members.map Prod.snd
  if manifestParts ∉ seen ∨ learningsParts ∉ seen then .error .missingRequiredTree
  else if ∃ m ∈ members, m.2 = manifestParts ∧ m.1.type ≠ .file then .error .manifestNotRegular
  else if ∃ m ∈ members, m.2 = learningsParts ∧ m.1.type ≠ .directory then
    .error .learningsNotDirectory
  else .ok members

/-! ## Writing -/

inductive Node where
  | directory (mode : Nat)
  | file (mode : Nat) (content : Bytes)
  deriving DecidableEq

def Node.mode : Node → Nat
  | .directory mode => mode
  | .file mode _ => mode

def Node.isDirectory : Node → Bool
  | .directory _ => true
  | .file _ _ => false

/-- What is in the output directory, and the directory itself. -/
abbrev Tree := List (Parts × Node)

/-- A failure keeps what has been written. -/
abbrev Step := Except (ExtractError × Tree) Tree

/-- Where the system calls fail: the paths that are not created, and the files whose writing stops
after some bytes. -/
structure Disk where
  refuses : Parts → Bool
  stops : Parts → Option Nat

variable (disk : Disk)

/-- Create one extracted directory while extraction is in progress. -/
def ensureDirectory (t : Tree) (path : Parts) : Step :=
  match t.lookup path with
  | some (.directory _) => .ok t
  | some (.file _ _) => .error (.collidesWithFile, t)
  | none =>
    if disk.refuses path then .error (.os, t) else .ok ((path, .directory 0o700) :: t)

/-- The loop of `extract_member` over the components above its destination. -/
def ensureParents (cursor : Parts) : Parts → Tree → Step
  | [], t => .ok t
  | component :: rest, t => do
    let t ← ensureDirectory disk t (cursor ++ [component])
    ensureParents (cursor ++ [component]) rest t

def writeFile (member : TarInfo) (destination : Parts) (t : Tree) : Step :=
  match t.lookup destination with
  | some _ => .error (.duplicateDestination, t)
  | none =>
    if disk.refuses destination then .error (.os, t)
    else
      let content := member.content.take member.size.toNat
      match disk.stops destination with
      | some n => .error (.os, (destination, .file 0o444 (content.take n)) :: t)
      | none =>
        let t := (destination, Node.file 0o444 content) :: t
        if member.content.length < member.size then .error (.truncatedMember, t) else .ok t

/-- Extract one previously validated regular member without tar extraction. -/
def extractMember (member : TarInfo) (parts : Parts) (t : Tree) : Step := do
  let t ← ensureParents disk [] parts.tail.dropLast t
  if member.type = .directory then ensureDirectory disk t parts.tail
  else writeFile disk member parts.tail t

def extractMembers : List (TarInfo × Parts) → Tree → Step
  | [], t => .ok t
  | (member, parts) :: rest, t => do
    let t ← extractMember disk member parts t
    extractMembers rest t

/-! ## Verification -/

/-- The loop of `verify_tree`. -/
def verifyEntries (requireReadOnly : Bool) (count : Nat) : Tree → Except ExtractError Unit
  | [] => .ok ()
  | (_, n) :: rest =>
    if MAX_MEMBERS < count + 1 then .error .unsafeEntry
    else if requireReadOnly = true ∧ n.mode &&& 0o222 ≠ 0 then .error .writable
    else verifyEntries requireReadOnly (count + 1) rest

def verifyTree (requireReadOnly : Bool) (t : Tree) : Except ExtractError Unit :=
  match t.lookup manifestParts.tail, t.lookup learningsParts.tail with
  | some (.file _ _), some (.directory _) => verifyEntries requireReadOnly 0 t
  | _, _ => .error .incomplete

def Node.chmod : Node → Node
  | .directory _ => .directory 0o555
  | .file _ content => .file 0o444 content

def chmodTree (t : Tree) : Tree := t.map fun e => (e.1, e.2.chmod)

/-- The entry cannot be removed: the directory it is in is not writable. -/
def Tree.locked (t : Tree) (path : Parts) : Bool :=
  match t.lookup path.dropLast with
  | some (.directory mode) => path ≠ [] && mode &&& 0o200 == 0
  | _ => false

/-- `shutil.rmtree(output, ignore_errors=True)`. What cannot be removed stays, and so does what it
is in. -/
def rmtree (t : Tree) : Tree :=
  t.filter fun e => t.any fun below => e.1.isPrefixOf below.1 && t.locked below.1

/-- What is left of the output directory is returned beside the result; nothing is there when it
does not exist. -/
def extract (archive : List TarInfo) : Except ExtractError Unit × Tree :=
  match validateMembers archive with
  | .error e => (.error e, [])
  | .ok members =>
    if disk.refuses [] then (.error .os, [])
    else
      match extractMembers disk members [([], .directory 0o700)] with
      | .error (e, t) => (.error e, rmtree t)
      | .ok t =>
        match verifyTree false t with
        | .error e => (.error e, rmtree t)
        | .ok () =>
          match verifyTree true (chmodTree t) with
          | .error e => (.error e, rmtree (chmodTree t))
          | .ok () => (.ok (), chmodTree t)

/-! ## What is accepted -/

/-- The member's path under the output directory. -/
def Denotes (member : TarInfo) (path : Parts) : Prop :=
  memberPath member.name = .ok (ROOT_NAME :: path)

/-- A component that names an entry of the directory it is looked up in. -/
structure Ordinary (component : Bytes) : Prop where
  nonempty : component ≠ []
  current : component ≠ utf8 "."
  parent : component ≠ utf8 ".."
  separator : 0x2f ∉ component
  terminator : 0 ∉ component

/-- The tree is what the archive says, with the directories above its members. -/
structure Exact (archive : List TarInfo) (tree : Tree) : Prop where
  members : ∀ m ∈ archive, (m.type = .file ∨ m.type = .directory) ∧ ∃ path, Denotes m path
  apart : archive.Pairwise fun m m' => ∀ path path', Denotes m path → Denotes m' path' →
    path ≠ path'
  leaves : ∀ m ∈ archive, ∀ m' ∈ archive, ∀ path path', m.type = .file → Denotes m path →
    Denotes m' path' → path <+: path' → path = path'
  complete : ∀ m ∈ archive, m.type = .file → m.size ≤ m.content.length
  contained : ∀ e ∈ tree, ∀ component ∈ e.1, Ordinary component
  distinct : (tree.map Prod.fst).Nodup
  files : ∀ path mode content, (path, .file mode content) ∈ tree ↔ mode = 0o444 ∧
    ∃ m ∈ archive, m.type = .file ∧ Denotes m path ∧ content = m.content.take m.size.toNat
  directories : ∀ path mode, (path, .directory mode) ∈ tree ↔ mode = 0o555 ∧
    (path = [] ∨ ∃ m ∈ archive, ∃ path', Denotes m path' ∧ path <+: path' ∧
      (m.type = .file → path ≠ path'))

theorem mem_splitOn {a b : UInt8} {xs part : Bytes} (h : part ∈ xs.splitOn a) (hb : b ∈ part) :
    b ∈ xs ∧ b ≠ a := by
  induction xs generalizing part with
  | nil =>
    rw [List.splitOn, List.splitOnP_nil, List.mem_singleton] at h
    simp [h] at hb
  | cons x xs ih =>
    rw [List.splitOn, List.splitOnP_cons_eq_if_modifyHead, ← List.splitOn] at h
    split at h
    · rcases List.mem_cons.mp h with rfl | h
      · simp at hb
      · exact ⟨List.mem_cons_of_mem _ (ih h hb).1, (ih h hb).2⟩
    · rename_i hx
      cases hs : xs.splitOn a with
      | nil => simp [hs] at h
      | cons first rest =>
        rw [hs] at ih h
        rw [List.modifyHead_cons] at h
        rcases List.mem_cons.mp h with rfl | h
        · rcases List.mem_cons.mp hb with rfl | hb
          · exact ⟨List.mem_cons_self, by simpa using hx⟩
          · have := ih List.mem_cons_self hb
            exact ⟨List.mem_cons_of_mem _ this.1, this.2⟩
        · have := ih (List.mem_cons_of_mem _ h) hb
          exact ⟨List.mem_cons_of_mem _ this.1, this.2⟩

/-- A relative path has the parts that `split` finds. -/
theorem mem_purePosixParts {name part : Bytes}
    (hroot : (purePosixParts name).head? = some ROOT_NAME) (h : part ∈ purePosixParts name) :
    part ∈ name.splitOn 0x2f := by
  have hslash : utf8 "/" ≠ ROOT_NAME := by decide
  have hslashes : utf8 "//" ≠ ROOT_NAME := by decide
  revert hroot h
  unfold purePosixParts
  dsimp only
  split
  · exact fun hroot => (hslash (Option.some.inj hroot)).elim
  · exact fun hroot => (hslashes (Option.some.inj hroot)).elim
  · exact fun hroot => (hslash (Option.some.inj hroot)).elim
  · exact fun _ => List.mem_of_mem_filter

/-- The parts of an accepted name are the archive's root and ordinary components. -/
theorem memberPath_ok {name : Bytes} {parts : Parts} (h : memberPath name = .ok parts) :
    parts = ROOT_NAME :: parts.tail ∧ ∀ part ∈ parts, Ordinary part := by
  unfold memberPath at h
  split at h
  · cases h
  rename_i hname
  extract_lets trimmed parts at h
  split at h
  · cases h
  rename_i hparts
  rw [← Except.ok.inj h]
  simp only [not_or, not_exists, not_and, not_not] at hname hparts
  obtain ⟨-, hroot, hpart, -⟩ := hparts
  refine ⟨(List.head?_eq_some_iff.mp hroot).elim fun _ h => by rw [h, List.tail_cons], ?_⟩
  intro part hp
  have hsplit := mem_purePosixParts hroot hp
  refine ⟨(hpart part hp).1, (hpart part hp).2.1, (hpart part hp).2.2, ?_, ?_⟩
  · intro hb
    exact (mem_splitOn hsplit hb).2 rfl
  · intro hb
    have hmem := (mem_splitOn hsplit hb).1
    unfold trimmed at hmem
    split at hmem
    · exact hname.2.1 (List.mem_of_mem_dropLast hmem)
    · exact hname.2.1 hmem

/-- What the loop has checked of each member. -/
structure Checked (m : TarInfo × Parts) : Prop where
  path : memberPath m.1.name = .ok m.2
  type : m.1.type = .directory ∨ m.1.type = .file

theorem validateLoop_ok {archive : List TarInfo} {seen : List Parts} {expanded : Int}
    {members : List (TarInfo × Parts)} (h : validateLoop seen expanded archive = .ok members) :
    members.map Prod.fst = archive ∧ (∀ m ∈ members, Checked m) ∧
      (members.map Prod.snd).Nodup ∧ ∀ m ∈ members, m.2 ∉ seen := by
  induction archive generalizing seen expanded members with
  | nil =>
    cases h
    simp
  | cons member rest ih =>
    rw [validateLoop] at h
    obtain ⟨-, h⟩ := ite_error_ok.mp h
    obtain ⟨parts, hpath, h⟩ := bind_ok h
    rw [ite_error_ok, ite_error_ok, ite_error_ok, ite_error_ok] at h
    obtain ⟨hseen, htype, -, -, h⟩ := h
    obtain ⟨members', hrest, h⟩ := bind_ok h
    cases h
    obtain ⟨hfst, hchecked, hnodup, hnew⟩ := ih hrest
    refine ⟨by rw [List.map_cons, hfst], ?_, ?_, ?_⟩
    · intro m hm
      rcases List.mem_cons.mp hm with rfl | hm
      · exact ⟨hpath, not_not.mp htype⟩
      · exact hchecked m hm
    · rw [List.map_cons, List.nodup_cons]
      refine ⟨?_, hnodup⟩
      intro hp
      obtain ⟨m, hm, heq⟩ := List.mem_map.mp hp
      exact hnew m hm (heq ▸ List.mem_cons_self)
    · intro m hm
      rcases List.mem_cons.mp hm with rfl | hm
      · exact hseen
      · exact fun hp => hnew m hm (List.mem_cons_of_mem _ hp)

/-! ## What is written -/

/-- Every directory can be written, so what is in it can be removed. -/
def Writable (t : Tree) : Prop := ∀ path mode, (path, Node.directory mode) ∈ t → mode = 0o700

structure Growing (t : Tree) : Prop where
  distinct : (t.map Prod.fst).Nodup
  writable : Writable t

/-- The step goes through and `Q` holds of what it has written, or what it leaves can be
removed. -/
def Keeps (Q : Tree → Prop) : Step → Prop
  | .ok t => Growing t ∧ Q t
  | .error (_, t) => Writable t

theorem Keeps.bind {Q R : Tree → Prop} {x : Step} {f : Tree → Step} (h : Keeps Q x)
    (hf : ∀ t, Growing t → Q t → Keeps R (f t)) : Keeps R (x >>= f) := by
  cases x with
  | ok t => exact hf t h.1 h.2
  | error e => exact h

theorem Keeps.mono {Q R : Tree → Prop} {x : Step} (h : Keeps Q x) (hQ : ∀ t, Q t → R t) :
    Keeps R x := by
  cases x with
  | ok t => exact ⟨h.1, hQ t h.2⟩
  | error e => exact h

section

variable {t : Tree}

theorem mem_of_lookup {path : Parts} {n : Node} (h : t.lookup path = some n) : (path, n) ∈ t := by
  obtain ⟨before, after, rfl, -⟩ := List.lookup_eq_some_iff.mp h
  simp

theorem Writable.cons_file (h : Writable t) (path : Parts) (mode : Nat) (content : Bytes) :
    Writable ((path, .file mode content) :: t) := by
  intro path' mode' hm
  rcases List.mem_cons.mp hm with heq | hm
  · cases heq
  · exact h path' mode' hm

theorem Growing.cons (h : Growing t) {path : Parts} {n : Node} (hl : t.lookup path = none)
    (hn : ∀ mode, n = .directory mode → mode = 0o700) : Growing ((path, n) :: t) where
  distinct := by
    rw [List.map_cons, List.nodup_cons]
    refine ⟨?_, h.distinct⟩
    intro hp
    obtain ⟨e, he, heq⟩ := List.mem_map.mp hp
    have hne := List.lookup_eq_none_iff.mp hl e he
    exact bne_iff_ne.mp hne heq.symm
  writable := by
    intro path' mode hm
    rcases List.mem_cons.mp hm with heq | hm
    · cases heq
      exact hn mode rfl
    · exact h.writable path' mode hm

/-- An entry has one node. -/
theorem Growing.unique (h : Growing t) {path : Parts} {n n' : Node} (hn : (path, n) ∈ t)
    (hn' : (path, n') ∈ t) : n = n' :=
  congrArg Prod.snd (List.inj_on_of_nodup_map h.distinct hn hn' rfl)

variable (disk : Disk)

theorem ensureDirectory_keeps (h : Growing t) (path : Parts) :
    Keeps (fun t' => ∀ e, e ∈ t' ↔ e ∈ t ∨ e = (path, .directory 0o700))
      (ensureDirectory disk t path) := by
  unfold ensureDirectory
  split
  · rename_i mode hl
    have hmem := mem_of_lookup hl
    rw [h.writable path mode hmem] at hmem
    refine ⟨h, fun e => ⟨.inl, ?_⟩⟩
    rintro (he | rfl)
    · exact he
    · exact hmem
  · exact h.writable
  · rename_i hl
    split
    · exact h.writable
    · refine ⟨h.cons hl (fun mode hm => (Node.directory.inj hm).symm), fun e => ?_⟩
      rw [List.mem_cons, or_comm]

/-- The directories above a destination are those its path goes through. -/
theorem ensureParents_keeps (h : Growing t) (cursor components : Parts) :
    Keeps (fun t' => ∀ e, e ∈ t' ↔ e ∈ t ∨
        ∃ path, path ≠ [] ∧ path <+: components ∧ e = (cursor ++ path, .directory 0o700))
      (ensureParents disk cursor components t) := by
  induction components generalizing t cursor with
  | nil =>
    refine ⟨h, fun e => ⟨.inl, ?_⟩⟩
    rintro (he | ⟨path, hne, hp, -⟩)
    · exact he
    · exact (hne (List.prefix_nil.mp hp)).elim
  | cons component rest ih =>
    rw [ensureParents]
    refine (ensureDirectory_keeps disk h _).bind fun t₁ h₁ he₁ => ?_
    refine (ih h₁ (cursor ++ [component])).mono fun t₂ he₂ e => ?_
    rw [he₂, he₁, or_assoc]
    refine or_congr_right ⟨?_, ?_⟩
    · rintro (rfl | ⟨path, -, hp, rfl⟩)
      · exact ⟨[component], by simp, by simp, rfl⟩
      · exact ⟨component :: path, by simp, by simpa using hp, by simp⟩
    · rintro ⟨path, hne, hp, rfl⟩
      cases path with
      | nil => exact (hne rfl).elim
      | cons c path =>
        obtain ⟨rfl, hrest⟩ := List.cons_prefix_cons.mp hp
        cases path with
        | nil => exact .inl rfl
        | cons c' path => exact .inr ⟨c' :: path, by simp, hrest, by simp⟩

/-- What the extraction writes at a member's own path. -/
def TarInfo.node (m : TarInfo) : Node :=
  if m.type = .directory then .directory 0o700 else .file 0o444 (m.content.take m.size.toNat)

def TarInfo.Readable (m : TarInfo) : Prop := m.type ≠ .directory → m.size ≤ m.content.length

theorem writeFile_keeps (h : Growing t) {m : TarInfo} (hm : m.type ≠ .directory) (path : Parts) :
    Keeps (fun t' => m.Readable ∧ ∀ e, e ∈ t' ↔ e ∈ t ∨ e = (path, m.node))
      (writeFile disk m path t) := by
  unfold writeFile
  split
  · exact h.writable
  rename_i hl
  split
  · exact h.writable
  dsimp only
  split
  · exact h.writable.cons_file _ _ _
  split
  · exact h.writable.cons_file _ _ _
  · rename_i hlen
    refine ⟨h.cons hl (fun _ h => by cases h), fun _ => not_lt.mp hlen, fun e => ?_⟩
    rw [List.mem_cons, or_comm, TarInfo.node, if_neg hm]

/-- The entries a member is the reason for. -/
def Entails (m : TarInfo) (path : Parts) (e : Parts × Node) : Prop :=
  (∃ above, above ≠ [] ∧ above <+: path.dropLast ∧ e = (above, .directory 0o700)) ∨
    e = (path, m.node)

theorem extractMember_keeps (h : Growing t) (m : TarInfo) (parts : Parts) :
    Keeps (fun t' => m.Readable ∧ ∀ e, e ∈ t' ↔ e ∈ t ∨ Entails m parts.tail e)
      (extractMember disk m parts t) := by
  rw [extractMember]
  refine (ensureParents_keeps disk h [] _).bind fun t₁ h₁ he₁ => ?_
  simp only [List.nil_append] at he₁
  split
  · rename_i hm
    refine (ensureDirectory_keeps disk h₁ _).mono fun t₂ he₂ => ⟨fun hd => (hd hm).elim, ?_⟩
    intro e
    rw [he₂, he₁, or_assoc, Entails, TarInfo.node, if_pos hm]
  · rename_i hm
    refine (writeFile_keeps disk h₁ hm _).mono fun t₂ he₂ => ⟨he₂.1, ?_⟩
    intro e
    rw [he₂.2, he₁, or_assoc, Entails]

theorem extractMembers_keeps (h : Growing t) (members : List (TarInfo × Parts)) :
    Keeps (fun t' => (∀ m ∈ members, m.1.Readable) ∧
        ∀ e, e ∈ t' ↔ e ∈ t ∨ ∃ m ∈ members, Entails m.1 m.2.tail e)
      (extractMembers disk members t) := by
  induction members generalizing t with
  | nil => exact ⟨h, by simp, by simp⟩
  | cons m rest ih =>
    rw [extractMembers]
    refine (extractMember_keeps disk h m.1 m.2).bind fun t₁ h₁ he₁ => ?_
    refine (ih h₁).mono fun t₂ he₂ => ⟨?_, fun e => ?_⟩
    · exact List.forall_mem_cons.mpr ⟨he₁.1, he₂.1⟩
    · rw [he₂.2, he₁.2, or_assoc, List.exists_mem_cons_iff]

end

/-! ## What is left -/

theorem rmtree_writable {t : Tree} (h : Writable t) : rmtree t = [] := by
  rw [rmtree, List.filter_eq_nil_iff]
  intro e _ he
  obtain ⟨below, -, hb⟩ := List.any_eq_true.mp he
  rw [Bool.and_eq_true, Tree.locked] at hb
  have hlocked := hb.2
  split at hlocked
  · rename_i mode hl
    rw [h _ mode (mem_of_lookup hl)] at hlocked
    simp at hlocked
  · cases hlocked

theorem mem_chmodTree {t : Tree} {path : Parts} {n : Node} :
    (path, n) ∈ chmodTree t ↔ ∃ n', (path, n') ∈ t ∧ n'.chmod = n := by
  simp [chmodTree]

theorem lookup_chmodTree (t : Tree) (path : Parts) :
    (chmodTree t).lookup path = (t.lookup path).map Node.chmod := by
  induction t with
  | nil => rfl
  | cons e t ih =>
    rw [chmodTree, List.map_cons, ← chmodTree, List.lookup_cons, List.lookup_cons, ih]
    cases path == e.1 <;> rfl

theorem verifyEntries_chmodTree {t : Tree} {count : Nat}
    (h : verifyEntries false count t = .ok ()) : verifyEntries true count (chmodTree t) = .ok () := by
  induction t generalizing count with
  | nil => rfl
  | cons e t ih =>
    obtain ⟨path, n⟩ := e
    rw [verifyEntries, ite_error_ok, ite_error_ok] at h
    have hmode : n.chmod.mode &&& 0o222 = 0 := by cases n <;> simp [Node.chmod, Node.mode]
    rw [chmodTree, List.map_cons, verifyEntries, ite_error_ok, ite_error_ok]
    exact ⟨h.1, fun hw => hw.2 hmode, ih h.2.2⟩

/-- Taking the permission to write away is all the second verification can ask for. -/
theorem verifyTree_chmodTree {t : Tree} (h : verifyTree false t = .ok ()) :
    verifyTree true (chmodTree t) = .ok () := by
  rw [verifyTree, lookup_chmodTree, lookup_chmodTree]
  rw [verifyTree] at h
  split at h
  · rename_i hm hl
    rw [hm, hl]
    exact verifyEntries_chmodTree h
  · cases h

variable {disk : Disk}

/-- What extraction leaves when it fails at any member, and when it does not. -/
theorem extract_cases (disk : Disk) (archive : List TarInfo) :
    (∃ e, extract disk archive = (.error e, [])) ∨
      ∃ members t, validateMembers archive = .ok members ∧
        (∀ m ∈ members, m.1.Readable) ∧ Growing t ∧
        (∀ e, e ∈ t ↔ e = ([], .directory 0o700) ∨ ∃ m ∈ members, Entails m.1 m.2.tail e) ∧
        extract disk archive = (.ok (), chmodTree t) := by
  rw [extract]
  cases hv : validateMembers archive with
  | error e => exact .inl ⟨e, rfl⟩
  | ok members =>
    dsimp only
    split
    · exact .inl ⟨_, rfl⟩
    have hstart : Growing [([], .directory 0o700)] :=
      ⟨by simp, fun path mode h => by cases List.mem_singleton.mp h; rfl⟩
    have hkeeps := extractMembers_keeps disk hstart members
    cases hx : extractMembers disk members [([], .directory 0o700)] with
    | error e =>
      rw [hx] at hkeeps
      exact .inl ⟨e.1, by rw [← rmtree_writable hkeeps]⟩
    | ok t =>
      rw [hx] at hkeeps
      obtain ⟨ht, hread, hmem⟩ := hkeeps
      dsimp only
      cases hf : verifyTree false t with
      | error e => exact .inl ⟨e, by rw [← rmtree_writable ht.writable]⟩
      | ok _ =>
        dsimp only
        rw [verifyTree_chmodTree hf]
        exact .inr ⟨members, t, rfl, hread, ht, by simpa using hmem, rfl⟩

theorem prefix_dropLast {α : Type} {xs ys : List α} (h : xs <+: ys) (hne : xs ≠ ys) :
    xs <+: ys.dropLast := by
  obtain ⟨rest, rfl⟩ := h
  have hr : rest ≠ [] := by
    rintro rfl
    simp at hne
  exact ⟨rest.dropLast, by rw [List.dropLast_append_of_ne_nil hr]⟩

theorem ne_of_prefix_dropLast {α : Type} {xs ys : List α} (hne : xs ≠ [])
    (h : xs <+: ys.dropLast) : xs ≠ ys := by
  rintro rfl
  have hlen := h.length_le
  rw [List.length_dropLast] at hlen
  exact hne (List.length_eq_zero_iff.mp (by omega))

/-! ## An archive and its tree -/

section

variable {archive : List TarInfo} {members : List (TarInfo × Parts)} {t : Tree}

/-- The members of the archive, each with the path it denotes. -/
structure Listing (archive : List TarInfo) (members : List (TarInfo × Parts)) : Prop where
  archive : members.map Prod.fst = archive
  checked : ∀ m ∈ members, Checked m
  distinct : (members.map Prod.snd).Nodup

theorem validateMembers_ok (h : validateMembers archive = .ok members) :
    Listing archive members := by
  rw [validateMembers] at h
  obtain ⟨members', hloop, h⟩ := bind_ok h
  dsimp only at h
  rw [ite_error_ok, ite_error_ok, ite_error_ok] at h
  cases h.2.2.2
  obtain ⟨hfst, hchecked, hnodup, -⟩ := validateLoop_ok hloop
  exact ⟨hfst, hchecked, hnodup⟩

theorem Checked.denotes {m : TarInfo × Parts} (h : Checked m) : Denotes m.1 m.2.tail := by
  rw [Denotes, ← (memberPath_ok h.path).1]
  exact h.path

theorem Checked.tail_eq {m : TarInfo × Parts} (h : Checked m) {path : Parts}
    (hd : Denotes m.1 path) : m.2.tail = path := by
  have heq := Except.ok.inj (h.path.symm.trans hd)
  rw [heq, List.tail_cons]

theorem Checked.ne_of_tail_ne {m m' : TarInfo × Parts} (h : Checked m) (h' : Checked m')
    (hne : m.2 ≠ m'.2) : m.2.tail ≠ m'.2.tail := by
  intro htail
  rw [(memberPath_ok h.path).1, (memberPath_ok h'.path).1, htail] at hne
  exact hne rfl

/-- A member with its path, found by the member alone. -/
theorem Listing.mem (h : Listing archive members) {m : TarInfo} (hm : m ∈ archive) :
    ∃ parts, (m, parts) ∈ members ∧ Checked (m, parts) := by
  rw [← h.archive] at hm
  obtain ⟨⟨m', parts⟩, hmem, rfl⟩ := List.mem_map.mp hm
  exact ⟨parts, hmem, h.checked _ hmem⟩

theorem Listing.of_mem (h : Listing archive members) {m : TarInfo × Parts} (hm : m ∈ members) :
    m.1 ∈ archive := by
  rw [← h.archive]
  exact List.mem_map_of_mem hm

theorem Listing.apart (h : Listing archive members) : archive.Pairwise fun m m' =>
    ∀ path path', Denotes m path → Denotes m' path' → path ≠ path' := by
  rw [← h.archive, List.pairwise_map]
  refine (List.pairwise_map.mp h.distinct).imp_of_mem ?_
  intro m m' hm hm' hne path path' hd hd'
  have hc := h.checked m hm
  have hc' := h.checked m' hm'
  rw [← hc.tail_eq hd, ← hc'.tail_eq hd']
  exact hc.ne_of_tail_ne hc' hne

theorem node_file {m : TarInfo} (h : m.type = .file) :
    m.node = .file 0o444 (m.content.take m.size.toNat) := by
  rw [TarInfo.node, if_neg (by simp [h])]

theorem node_directory {m : TarInfo} {mode : Nat} (h : m.node = .directory mode) :
    m.type = .directory := by
  by_contra hm
  rw [TarInfo.node, if_neg hm] at h
  cases h

/-- The tree holds the output directory and the entries its members are the reason for. -/
def Holds (members : List (TarInfo × Parts)) (t : Tree) : Prop :=
  ∀ e, e ∈ t ↔ e = ([], .directory 0o700) ∨ ∃ m ∈ members, Entails m.1 m.2.tail e

theorem Holds.mem_file (h : Holds members t) (hl : Listing archive members) {path : Parts}
    {mode : Nat} {content : Bytes} : (path, .file mode content) ∈ t ↔ mode = 0o444 ∧
      ∃ m ∈ archive, m.type = .file ∧ Denotes m path ∧ content = m.content.take m.size.toNat := by
  rw [h]
  constructor
  · rintro (heq | ⟨m, hm, ⟨above, -, -, heq⟩ | heq⟩)
    · cases heq
    · cases heq
    · obtain ⟨rfl, hn⟩ := Prod.mk.inj heq
      have htype : m.1.type = .file := by
        refine (hl.checked m hm).type.resolve_left fun hd => ?_
        rw [TarInfo.node, if_pos hd] at hn
        cases hn
      rw [node_file htype] at hn
      cases hn
      exact ⟨rfl, m.1, hl.of_mem hm, htype, (hl.checked m hm).denotes, rfl⟩
  · rintro ⟨rfl, m, hm, htype, hd, rfl⟩
    obtain ⟨parts, hmem, hc⟩ := hl.mem hm
    refine .inr ⟨_, hmem, .inr ?_⟩
    rw [hc.tail_eq hd, node_file htype]

theorem Holds.mem_directory (h : Holds members t) (hl : Listing archive members) {path : Parts}
    {mode : Nat} : (path, .directory mode) ∈ t ↔ mode = 0o700 ∧
      (path = [] ∨ ∃ m ∈ archive, ∃ path', Denotes m path' ∧ path <+: path' ∧
        (m.type = .file → path ≠ path')) := by
  rw [h]
  constructor
  · rintro (heq | ⟨m, hm, ⟨above, hne, hp, heq⟩ | heq⟩)
    · cases heq
      exact ⟨rfl, .inl rfl⟩
    · cases heq
      exact ⟨rfl, .inr ⟨m.1, hl.of_mem hm, _, (hl.checked m hm).denotes,
        hp.trans (List.dropLast_prefix _), fun _ => ne_of_prefix_dropLast hne hp⟩⟩
    · obtain ⟨rfl, hn⟩ := Prod.mk.inj heq
      have htype := node_directory hn.symm
      rw [TarInfo.node, if_pos htype] at hn
      cases hn
      refine ⟨rfl, .inr ⟨m.1, hl.of_mem hm, _, (hl.checked m hm).denotes, List.prefix_rfl, ?_⟩⟩
      simp [htype]
  · rintro ⟨rfl, rfl | ⟨m, hm, path', hd, hp, hfile⟩⟩
    · exact .inl rfl
    obtain ⟨parts, hmem, hc⟩ := hl.mem hm
    have htail := hc.tail_eq hd
    by_cases heq : path = path'
    · have htype : m.type = .directory := hc.type.resolve_right fun hf => hfile hf heq
      refine .inr ⟨_, hmem, .inr ?_⟩
      rw [heq, htail, TarInfo.node, if_pos htype]
    · by_cases hnil : path = []
      · exact .inl (by rw [hnil])
      · refine .inr ⟨_, hmem, .inl ⟨path, hnil, ?_, rfl⟩⟩
        rw [htail]
        exact prefix_dropLast hp heq

/-- A file has no path of a member below it. -/
theorem Holds.leaf (h : Holds members t) (hl : Listing archive members) (ht : Growing t)
    {m m' : TarInfo} (hm : m ∈ archive) (hm' : m' ∈ archive) {path path' : Parts}
    (htype : m.type = .file) (hd : Denotes m path) (hd' : Denotes m' path')
    (hp : path <+: path') : path = path' := by
  by_contra hne
  have hfile := (h.mem_file hl).mpr ⟨rfl, m, hm, htype, hd, rfl⟩
  have hdir := (h.mem_directory hl).mpr ⟨rfl, .inr ⟨m', hm', path', hd', hp, fun _ => hne⟩⟩
  cases ht.unique hfile hdir

theorem Holds.contained (h : Holds members t) (hl : Listing archive members) {path : Parts}
    {n : Node} (hm : (path, n) ∈ t) : ∀ component ∈ path, Ordinary component := by
  have hall : ∀ m ∈ members, ∀ component ∈ m.2.tail, Ordinary component := fun m hm component hc =>
    (memberPath_ok (hl.checked m hm).path).2 component (List.mem_of_mem_tail hc)
  intro component hc
  rcases (h _).mp hm with heq | ⟨m, hmem, ⟨above, -, hp, heq⟩ | heq⟩
  · cases heq
    cases hc
  · cases heq
    exact hall m hmem component ((hp.trans (List.dropLast_prefix _)).subset hc)
  · cases heq
    exact hall m hmem component hc

end

theorem chmodTree_exact {archive : List TarInfo} {members : List (TarInfo × Parts)} {t : Tree}
    (hl : Listing archive members) (hread : ∀ m ∈ members, m.1.Readable) (ht : Growing t)
    (h : Holds members t) : Exact archive (chmodTree t) where
  members := by
    intro m hm
    obtain ⟨parts, -, hc⟩ := hl.mem hm
    exact ⟨hc.type.symm, _, hc.denotes⟩
  apart := hl.apart
  leaves := fun m hm m' hm' path path' htype hd hd' hp => h.leaf hl ht hm hm' htype hd hd' hp
  complete := by
    intro m hm htype
    obtain ⟨parts, hmem, -⟩ := hl.mem hm
    exact hread _ hmem (by simp [htype])
  contained := by
    rintro ⟨path, n⟩ he
    obtain ⟨n', hn', -⟩ := mem_chmodTree.mp he
    exact h.contained hl hn'
  distinct := by
    have hkeys : (chmodTree t).map Prod.fst = t.map Prod.fst := by
      rw [chmodTree, List.map_map]
      rfl
    rw [hkeys]
    exact ht.distinct
  files := by
    intro path mode content
    rw [mem_chmodTree]
    constructor
    · rintro ⟨n, hn, heq⟩
      cases n with
      | directory mode' => cases heq
      | file mode' content' =>
        cases heq
        exact ⟨rfl, ((h.mem_file hl).mp hn).2⟩
    · rintro ⟨rfl, hm⟩
      exact ⟨_, (h.mem_file hl).mpr ⟨rfl, hm⟩, rfl⟩
  directories := by
    intro path mode
    rw [mem_chmodTree]
    constructor
    · rintro ⟨n, hn, heq⟩
      cases n with
      | directory mode' =>
        cases heq
        exact ⟨rfl, ((h.mem_directory hl).mp hn).2⟩
      | file mode' content' => cases heq
    · rintro ⟨rfl, hm⟩
      exact ⟨_, (h.mem_directory hl).mpr ⟨rfl, hm⟩, rfl⟩

/-- The tree of an accepted archive is its members with the directories above them, and nothing is
left of one that is not accepted. -/
theorem extract_exact (disk : Disk) (archive : List TarInfo) :
    ((extract disk archive).1 = .ok () → Exact archive (extract disk archive).2) ∧
      ∀ e, (extract disk archive).1 = .error e → (extract disk archive).2 = [] := by
  rcases extract_cases disk archive with ⟨e, h⟩ | ⟨members, t, hv, hread, ht, hmem, h⟩
  · rw [h]
    exact ⟨fun hok => (by cases hok), fun _ _ => rfl⟩
  · rw [h]
    exact ⟨fun _ => chmodTree_exact (validateMembers_ok hv) hread ht hmem,
      fun e he => (by cases he)⟩

def soundDisk : Disk := ⟨fun _ => false, fun _ => none⟩

def nestedArchive : List TarInfo :=
  [⟨utf8 "learning-bundle/manifest.json", .file, 2, utf8 "\x7b\x7d"⟩,
    ⟨utf8 "learning-bundle/learnings/", .directory, 0, []⟩,
    ⟨utf8 "learning-bundle/learnings/a/b.txt", .file, 1, utf8 "x"⟩]

/-- A directory that no member names is in the tree. -/
theorem ancestor_written : ¬ ∀ disk archive, (extract disk archive).1 = .ok () →
    ∀ e ∈ (extract disk archive).2, ∃ m ∈ archive, Denotes m e.1 := by
  intro h
  have hno : ∀ m ∈ nestedArchive,
      memberPath m.name ≠ .ok [ROOT_NAME, utf8 "learnings", utf8 "a"] := by decide
  obtain ⟨m, hm, hd⟩ := h soundDisk nestedArchive rfl
    ([utf8 "learnings", utf8 "a"], .directory 0o555) (by decide)
  exact hno m hm hd

end Scripts
end EgoBridge
