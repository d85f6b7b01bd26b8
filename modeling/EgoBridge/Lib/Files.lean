import EgoBridge.Lib.Utf8

/-!
# Lib.Files

POSIX path texts and a file system seen through `lstat`.

* `Name`, `Path` — `OsStr` and `Path`. Two paths are the same when they have the same components; a
  path may still be written so that it names a directory only.
* `Disk`         — what is at each canonical path. Symbolic links are seen, not followed.
* `Disk.Grows`   — a later disk on which every directory is still the one it was.
-/

namespace EgoBridge
namespace Files

/-- `other`: bytes that encode no text. -/
inductive Name where
  | text (s : String)
  | other (bytes : Bytes)
  deriving DecidableEq

/-- `to_str`. -/
def Name.toStr : Name → Option String
  | .text s => some s
  | .other _ => none

inductive Component where
  | normal (n : Name)
  | curDir
  | parentDir
  deriving DecidableEq

def Component.name? : Component → Option Name
  | .normal n => some n
  | _ => none

structure Path where
  absolute : Bool
  components : List Component
  /-- Written with `/` or `/.` at its end. -/
  trailing : Bool
  deriving DecidableEq

namespace Path

/-- The components of a text cut at `/`: empty parts and inner `.` say nothing. -/
def parts : Bool → List (List Char) → List Component
  | _, [] => []
  | _, [] :: rest => parts false rest
  | first, ['.'] :: rest => (if first then [.curDir] else []) ++ parts false rest
  | _, ['.', '.'] :: rest => .parentDir :: parts false rest
  | _, cs :: rest => .normal (.text (String.ofList cs)) :: parts false rest

/-- `Path::new`. -/
def ofText (s : String) : Path :=
  let cut := s.toList.splitOn '/'
  { absolute := s.toList.head? = some '/'
    components := parts true cut
    trailing := cut.getLast? = some [] ∨ cut.getLast? = some ['.'] }

/-- `==` on paths. -/
def same (p q : Path) : Bool := p.absolute = q.absolute ∧ p.components = q.components

/-- The names of a path made of normal components. -/
def names? (p : Path) : Option (List Name) := p.components.mapM Component.name?

/-- `parent`. -/
def parent (p : Path) : Option Path :=
  if p.components = [] then none
  else some { absolute := p.absolute, components := p.components.dropLast, trailing := false }

/-- `file_name`. -/
def fileName (p : Path) : Option Name :=
  match p.components.getLast? with
  | some (.normal n) => some n
  | _ => none

/-- A canonical absolute path. -/
def ofNames (names : List Name) : Path :=
  { absolute := true, components := names.map .normal, trailing := false }

end Path

theorem mem_names {p : Path} {names : List Name} (h : p.names? = some names) {n : Name}
    (hn : n ∈ names) : .normal n ∈ p.components := by
  unfold Path.names? at h
  generalize p.components = cs at h ⊢
  induction cs generalizing names with
  | nil =>
    cases h
    exact absurd hn List.not_mem_nil
  | cons c cs ih =>
    cases c with
    | normal m =>
      cases hcs : cs.mapM Component.name? with
      | none => simp [List.mapM_cons, Component.name?, hcs] at h
      | some ns =>
        simp only [List.mapM_cons, Component.name?, hcs, Option.bind_eq_bind, Option.bind_some,
          Option.pure_def, Option.some.injEq] at h
        subst h
        rcases List.mem_cons.mp hn with rfl | hn
        · exact List.mem_cons_self
        · exact List.mem_cons_of_mem _ (ih hn hcs)
    | curDir => simp [List.mapM_cons, Component.name?] at h
    | parentDir => simp [List.mapM_cons, Component.name?] at h

/-! ## Text -/

/-- `to_str` of a canonical path. -/
def textOf (names : List Name) : Option String := do
  let texts ← names.mapM Name.toStr
  some ("/" ++ String.intercalate "/" texts)

/-- Every name is text. -/
def Textual (names : List Name) : Prop := ∀ n ∈ names, ∃ s, n = .text s

theorem textOf_textual {names : List Name} (h : Textual names) : ∃ s, textOf names = some s := by
  have hm : ∃ ts, names.mapM Name.toStr = some ts := by
    induction names with
    | nil => exact ⟨[], rfl⟩
    | cons n names ih =>
      obtain ⟨s, rfl⟩ := h n List.mem_cons_self
      obtain ⟨ts, hts⟩ := ih fun m hm => h m (List.mem_cons_of_mem _ hm)
      exact ⟨s :: ts, by simp [List.mapM_cons, Name.toStr, hts]⟩
  obtain ⟨ts, hts⟩ := hm
  exact ⟨_, by simp [textOf, hts]; rfl⟩

theorem parts_textual (first : Bool) (cut : List (List Char)) (n : Name)
    (h : .normal n ∈ Path.parts first cut) : ∃ s, n = .text s := by
  induction cut generalizing first with
  | nil => simp [Path.parts] at h
  | cons cs rest ih =>
    unfold Path.parts at h
    split at h
    · rename_i he
      cases he
    · rename_i he
      cases he
      exact ih false h
    · rename_i he
      cases he
      rcases List.mem_append.mp h with h | h
      · split at h
        · simp at h
        · simp at h
      · exact ih false h
    · rename_i he
      cases he
      rcases List.mem_cons.mp h with h | h
      · cases h
      · exact ih false h
    · rename_i he
      cases he
      rcases List.mem_cons.mp h with h | h
      · cases h
        exact ⟨_, rfl⟩
      · exact ih false h

theorem mem_of_parent {p q : Path} (h : p.parent = some q) {c : Component} (hc : c ∈ q.components) :
    c ∈ p.components := by
  unfold Path.parent at h
  split at h
  · cases h
  · cases h
    exact List.dropLast_subset _ hc

theorem mem_of_fileName {p : Path} {n : Name} (h : p.fileName = some n) :
    .normal n ∈ p.components := by
  unfold Path.fileName at h
  split at h
  · rename_i m hm
    cases h
    exact List.mem_of_getLast? hm
  · cases h

theorem names_ofText {s : String} {names : List Name} (h : (Path.ofText s).names? = some names) :
    Textual names := fun n hn => parts_textual _ _ n (mem_names h hn)

/-- A name a directory can hold. -/
def Name.Proper : Name → Prop
  | .text s => s ≠ "" ∧ s ≠ "." ∧ s ≠ ".." ∧ '/' ∉ s.toList
  | .other _ => True

/-- `to_str` of a relative path. -/
def relativeText (names : List Name) : Option String :=
  (names.mapM Name.toStr).map (String.intercalate "/")

theorem mapM_toStr {names : List Name} {texts : List String}
    (h : names.mapM Name.toStr = some texts) : names = texts.map .text := by
  induction names generalizing texts with
  | nil =>
    cases h
    rfl
  | cons n names ih =>
    cases n with
    | other b => simp [List.mapM_cons, Name.toStr] at h
    | text s =>
      cases hm : names.mapM Name.toStr with
      | none => simp [List.mapM_cons, Name.toStr, hm] at h
      | some ts =>
        simp only [List.mapM_cons, Name.toStr, hm, Option.bind_eq_bind, Option.bind_some,
          Option.pure_def, Option.some.injEq] at h
        subst h
        rw [List.map_cons, ← ih hm]

theorem parts_proper {texts : List String} (hp : ∀ s ∈ texts, (Name.text s).Proper) (first : Bool) :
    Path.parts first (texts.map String.toList) = texts.map fun s => .normal (.text s) := by
  induction texts generalizing first with
  | nil => rfl
  | cons s texts ih =>
    obtain ⟨⟨h0, h1, h2, -⟩, htexts⟩ := List.forall_mem_cons.mp hp
    rw [List.map_cons, List.map_cons, Path.parts, String.ofList_toList, ih htexts]
    · exact fun h => h0 (String.toList_inj.mp h)
    · exact fun h => h1 (String.toList_inj.mp h)
    · exact fun h => h2 (String.toList_inj.mp h)

theorem names_map_normal (a t : Bool) (names : List Name) :
    (Path.mk a (names.map .normal) t).names? = some names := by
  rw [Path.names?]
  induction names with
  | nil => rfl
  | cons n names ih =>
    simp only at ih
    simp [List.mapM_cons, Component.name?, ih]

/-- The text of a relative path reads back as the path. -/
theorem ofText_relativeText {names : List Name} (hne : names ≠ []) (hp : ∀ n ∈ names, n.Proper)
    {text : String} (h : relativeText names = some text) :
    text ≠ "" ∧ Path.ofText text = ⟨false, names.map .normal, false⟩ := by
  obtain ⟨texts, htexts, rfl⟩ := Option.map_eq_some_iff.mp h
  obtain rfl := mapM_toStr htexts
  have hproper : ∀ s ∈ texts, (Name.text s).Proper := fun s hs => hp _ (List.mem_map_of_mem hs)
  have htne : texts ≠ [] := fun h => hne (by rw [h, List.map_nil])
  have hcut : (String.intercalate "/" texts).toList.splitOn '/' = texts.map String.toList := by
    rw [String.toList_intercalate]
    refine List.splitOn_intercalate '/' ?_ (by simpa using htne)
    rintro l hl
    obtain ⟨s, hs, rfl⟩ := List.mem_map.mp hl
    exact (hproper s hs).2.2.2
  have hlast : ∀ cs, (texts.map String.toList).getLast? = some cs → cs ≠ [] ∧ cs ≠ ['.'] := by
    intro cs hcs
    obtain ⟨s, hs, rfl⟩ := List.mem_map.mp (List.mem_of_getLast? hcs)
    obtain ⟨h0, h1, -, -⟩ := hproper s hs
    exact ⟨fun h => h0 (String.toList_inj.mp h), fun h => h1 (String.toList_inj.mp h)⟩
  have hhead : (String.intercalate "/" texts).toList.head? ≠ some '/' ∧
      (String.intercalate "/" texts).toList ≠ [] := by
    obtain ⟨s, ts, rfl⟩ := List.exists_cons_of_ne_nil htne
    obtain ⟨h0, -, -, hslash⟩ := hproper s List.mem_cons_self
    obtain ⟨c, cs, hc⟩ := List.exists_cons_of_ne_nil fun h => h0 (String.toList_inj.mp h)
    have hne : c ≠ '/' := by
      rintro rfl
      exact hslash (hc ▸ List.mem_cons_self)
    have hstart : ∃ r, (String.intercalate "/" (s :: ts)).toList = c :: r := by
      rw [String.toList_intercalate, List.map_cons, hc]
      cases ts with
      | nil => exact ⟨_, List.intercalate_singleton⟩
      | cons t ts => exact ⟨_, rfl⟩
    obtain ⟨r, hr⟩ := hstart
    rw [hr, List.head?_cons]
    exact ⟨fun h => hne (Option.some.inj h), List.cons_ne_nil _ _⟩
  constructor
  · exact fun h => hhead.2 (congrArg String.toList h)
  · rw [Path.ofText, hcut, parts_proper hproper, List.map_map, Path.mk.injEq]
    refine ⟨decide_eq_false hhead.1, rfl, decide_eq_false ?_⟩
    rintro (h | h)
    · exact (hlast _ h).1 rfl
    · exact (hlast _ h).2 rfl

/-! ## A file system -/

inductive Kind where
  | directory
  | regular
  | symlink
  | fifo
  /-- A device or a socket. -/
  | special
  deriving DecidableEq

structure Node where
  kind : Kind
  /-- Device and inode. -/
  identity : Nat × Nat
  links : Nat
  /-- Of the current user. -/
  owned : Bool
  /-- Some write bit is set. -/
  writable : Bool
  bytes : Bytes
  deriving DecidableEq

abbrev Disk := List Name → Option Node

namespace Disk

def isDir (d : Disk) (p : List Name) : Bool := (d p).any (·.kind = .directory)

/-- Every directory on the way from `base` down to `base ++ rel` is there. -/
def chain (d : Disk) (base : List Name) : List Name → Bool
  | [] => d.isDir base
  | n :: rel => d.isDir base && chain d (base ++ [n]) rel

/-- `lstat`: the entry, below directories only. -/
def lstat (d : Disk) (p : List Name) : Option Node :=
  if p = [] then d []
  else if d.chain [] p.dropLast then d p
  else none

def set (d : Disk) (p : List Name) (n : Node) : Disk := Function.update d p (some n)

def erase (d : Disk) (p : List Name) : Disk := Function.update d p none

/-- `unlink`: not of a directory. -/
def unlink (d : Disk) (p : List Name) : Disk := if d.isDir p then d else d.erase p

/-- `rename`, of a file over a file or to where there is nothing. -/
def rename (d : Disk) (source destination : List Name) : Disk :=
  match d source with
  | none => d
  | some n => (d.erase source).set destination n

/-- Every directory is still the one it was. -/
def Grows (d d' : Disk) : Prop := ∀ p n, d p = some n → n.kind = .directory → d' p = some n

theorem Grows.refl (d : Disk) : d.Grows d := fun _ _ h _ => h

theorem Grows.trans {d d' d'' : Disk} (h : d.Grows d') (h' : d'.Grows d'') : d.Grows d'' :=
  fun p n hp hn => h' p n (h p n hp hn) hn

theorem Grows.set {d : Disk} {p : List Name} (n : Node) (h : d.isDir p = false) :
    d.Grows (d.set p n) := by
  intro q m hq hm
  have hne : q ≠ p := by
    rintro rfl
    simp [isDir, hq, hm] at h
  simp [Disk.set, Function.update_of_ne hne, hq]

theorem Grows.unlink (d : Disk) (p : List Name) : d.Grows (d.unlink p) := by
  unfold Disk.unlink
  split
  · exact .refl d
  · rename_i h
    intro q m hq hm
    have hne : q ≠ p := by
      rintro rfl
      simp [isDir, hq, hm] at h
    simp [erase, Function.update_of_ne hne, hq]

theorem Grows.isDir {d d' : Disk} (h : d.Grows d') {p : List Name} (hp : d.isDir p = true) :
    d'.isDir p = true := by
  unfold Disk.isDir at hp ⊢
  cases hd : d p with
  | none => simp [hd] at hp
  | some n =>
    have hn : n.kind = .directory := by simpa [hd] using hp
    rw [h p n hd hn]
    simpa using hn

theorem Grows.chain {d d' : Disk} (h : d.Grows d') (base rel : List Name)
    (hc : d.chain base rel = true) : d'.chain base rel = true := by
  induction rel generalizing base with
  | nil => exact h.isDir hc
  | cons n rel ih =>
    rw [Disk.chain, Bool.and_eq_true] at hc ⊢
    exact ⟨h.isDir hc.1, ih _ hc.2⟩

/-- The last directory of a chain. -/
theorem isDir_of_chain {d : Disk} (base rel : List Name) (hc : d.chain base rel = true) :
    d.isDir (base ++ rel) = true := by
  induction rel generalizing base with
  | nil => simpa [chain] using hc
  | cons n rel ih =>
    rw [chain, Bool.and_eq_true] at hc
    simpa using ih _ hc.2

theorem isDir_eq_of_eq {d d' : Disk} {p : List Name} (h : d' p = d p) : d'.isDir p = d.isDir p := by
  simp [isDir, h]

@[simp] theorem set_self (d : Disk) (p : List Name) (n : Node) : d.set p n p = some n := by
  simp [set]

theorem set_of_ne (d : Disk) {p q : List Name} (n : Node) (h : q ≠ p) : d.set p n q = d q := by
  simp [set, Function.update_of_ne h]

theorem set_set (d : Disk) (p : List Name) (m n : Node) : (d.set p m).set p n = d.set p n :=
  Function.update_idem _ _ _

theorem erase_set {d : Disk} {p : List Name} (n : Node) (h : d p = none) :
    (d.set p n).erase p = d := by
  rw [erase, set, Function.update_idem, ← h, Function.update_eq_self]

/-- What was made where nothing was, and renamed. -/
theorem rename_set {d : Disk} {p : List Name} (n : Node) (q : List Name) (h : d p = none) :
    (d.set p n).rename p q = d.set q n := by
  rw [rename, set_self]
  dsimp only
  rw [erase_set n h]

/-- What was made where nothing was, and removed. -/
theorem unlink_set {d : Disk} {p : List Name} {n : Node} (h : d p = none)
    (hn : n.kind ≠ .directory) : (d.set p n).unlink p = d := by
  have hdir : (d.set p n).isDir p = false := by
    simp [isDir, hn]
  rw [unlink, hdir, if_neg Bool.false_ne_true, erase_set n h]

theorem unlink_none {d : Disk} {p : List Name} (h : d p = none) : d.unlink p = d := by
  have hdir : d.isDir p = false := by simp [isDir, h]
  rw [unlink, hdir, if_neg Bool.false_ne_true, erase, ← h, Function.update_eq_self]

theorem unlink_self {d : Disk} {p : List Name} (h : d.isDir p = false) : d.unlink p p = none := by
  simp [unlink, h, erase]

theorem unlink_of_ne (d : Disk) {p q : List Name} (h : q ≠ p) : d.unlink p q = d q := by
  unfold unlink
  split
  · rfl
  · simp [erase, Function.update_of_ne h]

end Disk
end Files
end EgoBridge
