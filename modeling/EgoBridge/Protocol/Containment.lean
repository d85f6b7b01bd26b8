import EgoBridge.Protocol.Allowlist

/-!
# Protocol.Containment

Which paths an allowlist lets through, on a file system that does not change meanwhile.

* `Denotes`           — where a path leads, its symbolic links followed.
* `Contained`         — a path below a root, with no link on its way.
* `openInput_iff`     — the inputs accepted are the contained paths of single regular files within
  the limits that are not written as directories.
* `containment_exact` — this, the same for outputs, and that neither leads outside every root.
-/

namespace EgoBridge
namespace Files

/-- The bytes of an `OsStr`. -/
def Name.bytes : Name → Bytes
  | .text s => utf8 s
  | .other bytes => bytes

namespace Disk

theorem chain_append {d : Disk} (base xs ys : List Name) :
    d.chain base (xs ++ ys) = true ↔ d.chain base xs = true ∧ d.chain (base ++ xs) ys = true := by
  induction xs generalizing base with
  | nil =>
    rw [List.nil_append, List.append_nil]
    refine ⟨fun h => ⟨?_, h⟩, fun h => h.2⟩
    cases ys with
    | nil => exact h
    | cons y ys => exact (Bool.and_eq_true_iff.mp h).1
  | cons x xs ih =>
    rw [List.cons_append, chain, chain, Bool.and_eq_true, Bool.and_eq_true, ih, List.append_assoc,
      List.singleton_append, and_assoc]

theorem lstat_some {d : Disk} {p : List Name} {n : Node} (h : d.lstat p = some n) :
    d p = some n ∧ (p ≠ [] → d.chain [] p.dropLast = true) := by
  unfold lstat at h
  split at h
  · rename_i hp
    exact ⟨hp ▸ h, fun hne => absurd hp hne⟩
  · split at h
    · rename_i hc
      exact ⟨h, fun _ => hc⟩
    · cases h

theorem lstat_of {d : Disk} {p : List Name} {n : Node} (h : d p = some n)
    (hc : p ≠ [] → d.chain [] p.dropLast = true) : d.lstat p = some n := by
  unfold lstat
  split
  · rename_i hp
    exact hp ▸ h
  · rename_i hp
    rw [if_pos (hc hp)]
    exact h

/-- What a chain ends in can be looked up. -/
theorem lstat_of_chain {d : Disk} {p : List Name} (h : d.chain [] p = true) :
    ∃ n, d.lstat p = some n ∧ n.kind = .directory := by
  have hdir : d.isDir p = true := isDir_of_chain [] p h
  cases hn : d p with
  | none =>
    rw [isDir, hn] at hdir
    cases hdir
  | some n =>
    rw [isDir, hn] at hdir
    refine ⟨n, lstat_of hn fun hne => ?_, by simpa using hdir⟩
    rw [← List.dropLast_append_getLast hne] at h
    exact ((chain_append [] _ _).mp h).1

/-- A directory that can be looked up is the end of a chain. -/
theorem chain_of_lstat {d : Disk} {p : List Name} {n : Node} (h : d.lstat p = some n)
    (hk : n.kind = .directory) : d.chain [] p = true := by
  obtain ⟨hn, hc⟩ := lstat_some h
  have hdir : d.isDir p = true := by simp [isDir, hn, hk]
  rcases List.eq_nil_or_concat p with rfl | ⟨init, x, rfl⟩
  · exact hdir
  · rw [List.concat_eq_append] at hc hdir ⊢
    have hc := hc (by simp)
    rw [List.dropLast_concat] at hc
    refine (chain_append [] init [x]).mpr ⟨hc, ?_⟩
    rw [chain, chain, Bool.and_eq_true]
    exact ⟨isDir_of_chain _ _ hc, hdir⟩

/-- All directories on the way to a path that can be looked up are directories. -/
theorem isDir_of_lstat {d : Disk} {p q : List Name} {n : Node} {x : Name} (h : d.lstat p = some n)
    (hq : q ++ [x] <+: p) : d.isDir q = true := by
  obtain ⟨rest, rfl⟩ := hq
  have hc := (lstat_some h).2 (by simp)
  have hdrop : (q ++ [x] ++ rest).dropLast = q ++ (x :: rest).dropLast := by
    rw [List.append_assoc, List.singleton_append, List.dropLast_append_of_ne_nil (by simp)]
  rw [hdrop] at hc
  exact isDir_of_chain [] q ((chain_append [] q _).mp hc).1

end Disk

/-- Where a path leads from the directory `base`, its symbolic links followed. `links` are their
targets. -/
inductive Denotes (d : Disk) (links : List Name → Path) :
    List Name → List Component → List Name → Prop where
  | here {base : List Name} : Denotes d links base [] base
  | down {base q : List Name} {n : Name} {rest : List Component} {node : Node} :
      d (base ++ [n]) = some node → node.kind ≠ .symlink → Denotes d links (base ++ [n]) rest q →
      Denotes d links base (.normal n :: rest) q
  | link {base q : List Name} {n : Name} {rest : List Component} {node : Node} :
      d (base ++ [n]) = some node → node.kind = .symlink →
      Denotes d links (if (links (base ++ [n])).absolute then [] else base)
        ((links (base ++ [n])).components ++ rest) q →
      Denotes d links base (.normal n :: rest) q
  | stay {base q : List Name} {rest : List Component} :
      Denotes d links base rest q → Denotes d links base (.curDir :: rest) q
  | up {base q : List Name} {rest : List Component} :
      Denotes d links base.dropLast rest q → Denotes d links base (.parentDir :: rest) q

/-- Without a link on its way a path leads to what it names. -/
theorem Denotes.eq {d : Disk} {links : List Name → Path} {base names q : List Name}
    (h : Denotes d links base (names.map .normal) q)
    (hlinks : ∀ xs, xs ≠ [] → xs <+: names → ∀ n, d (base ++ xs) = some n → n.kind ≠ .symlink) :
    q = base ++ names := by
  induction names generalizing base with
  | nil =>
    cases h
    exact (List.append_nil _).symm
  | cons x names ih =>
    have hfirst := hlinks [x] (by simp) ⟨names, rfl⟩
    cases h with
    | down hn _ hrest =>
      have hq := ih hrest fun xs hne hxs n hn => by
        refine hlinks (x :: xs) (by simp) ?_ n ?_
        · obtain ⟨rest, rfl⟩ := hxs
          exact ⟨rest, rfl⟩
        · rwa [List.append_assoc, List.singleton_append] at hn
      rw [hq, List.append_assoc, List.singleton_append]
    | link hn hk _ => exact absurd hk (hfirst _ hn)

theorem components_of_names {p : Path} {names : List Name} (h : p.names? = some names) :
    p.components = names.map .normal := by
  unfold Path.names? at h
  generalize p.components = cs at h ⊢
  induction cs generalizing names with
  | nil =>
    cases h
    rfl
  | cons c cs ih =>
    cases c with
    | normal n =>
      cases hcs : cs.mapM Component.name? with
      | none => simp [List.mapM_cons, Component.name?, hcs] at h
      | some ns =>
        simp only [List.mapM_cons, Component.name?, hcs, Option.bind_eq_bind, Option.bind_some,
          Option.pure_def, Option.some.injEq] at h
        subst h
        rw [ih hcs, List.map_cons]
    | curDir => simp [List.mapM_cons, Component.name?] at h
    | parentDir => simp [List.mapM_cons, Component.name?] at h

/-- A path to something that is no link passes no link. -/
theorem no_link_of_lstat {d : Disk} {names : List Name} {n : Node} (h : d.lstat names = some n)
    (hk : n.kind ≠ .symlink) (xs : List Name) (hxs : xs <+: names) (m : Node)
    (hm : d xs = some m) : m.kind ≠ .symlink := by
  obtain ⟨rest, rfl⟩ := hxs
  cases rest with
  | nil =>
    rw [List.append_nil] at h
    rw [(Disk.lstat_some h).1] at hm
    cases hm
    exact hk
  | cons x rest =>
    have hdir := Disk.isDir_of_lstat (q := xs) (x := x) h ⟨rest, by simp⟩
    rw [Disk.isDir, hm] at hdir
    intro hlink
    simp [hlink] at hdir

end Files

namespace Protocol

open Files

def noFaults : Faults := fun _ => false

/-! ## Building an allowlist -/

instance (l : AllowlistLimits) : Decidable l.Valid :=
  decidable_of_iff
    ((0 < l.maxFileBytes ∧ l.maxFileBytes ≤ MAX_ALLOWLISTED_FILE_BYTES) ∧
      (0 < l.maxTotalBytes ∧ l.maxTotalBytes ≤ MAX_ALLOWLISTED_TOTAL_BYTES) ∧
      (0 < l.maxFileCount ∧ l.maxFileCount ≤ MAX_ALLOWLISTED_FILE_COUNT))
    ⟨fun h => ⟨h.1, h.2.1, h.2.2⟩, fun h => ⟨h.fileBytes, h.totalBytes, h.fileCount⟩⟩

namespace Allowlist

/-- The roots, each once, with the identities they have now. -/
def canonicalRoots (d : Disk) (io : Faults) (acc : List (List Name × (Nat × Nat))) :
    List Path → Except AllowlistError (List (List Name × (Nat × Nat)))
  | [] => .ok acc
  | root :: rest => do
    let canonical ← canonicalExistingDirectory d io root
    if acc.any (·.1 = canonical) then canonicalRoots d io acc rest
    else
      match d.lstat canonical with
      | none => .error .io
      | some n => canonicalRoots d io (acc ++ [(canonical, n.identity)]) rest

/-- `cmp` on paths: by components, and these by bytes. -/
def notAfter (left right : List Name × (Nat × Nat)) : Bool :=
  left.1.map Name.bytes ≤ right.1.map Name.bytes

/-- Build an allowlist after canonicalizing every existing root. -/
def new (d : Disk) (io : Faults) (roots : List Path) (revision : UInt64)
    (limits : AllowlistLimits) : Except AllowlistError Allowlist :=
  if revision = 0 then .error .invalidRevision
  else if h : limits.Valid then
    match canonicalRoots d io [] roots with
    | .error e => .error e
    | .ok [] => .error .empty
    | .ok (root :: rest) => .ok ⟨(root :: rest).mergeSort notAfter, limits, h⟩
  else .error .invalidLimits

/-- A root of an allowlist: a directory, with the identity it has. -/
def IsRoot (d : Disk) (r : List Name × (Nat × Nat)) : Prop :=
  ∃ n, d.lstat r.1 = some n ∧ n.kind = .directory ∧ n.identity = r.2

theorem canonicalExistingDirectory_node {d : Disk} {io : Faults} {p : Path} {names : List Name}
    (h : canonicalExistingDirectory d io p = .ok names) :
    ∃ n, d.lstat names = some n ∧ n.kind = .directory := by
  obtain ⟨ns, hr, h⟩ := bind_ok h
  split at h
  · cases h
  · rename_i n hn
    split at h
    · cases h
    · rename_i hk
      obtain rfl := canonicalize_ok h
      exact ⟨n, hn, not_not.mp hk⟩

theorem canonicalRoots_ok {d : Disk} {io : Faults} {roots : List Path}
    {acc out : List (List Name × (Nat × Nat))} (h : canonicalRoots d io acc roots = .ok out)
    (hacc : ∀ r ∈ acc, IsRoot d r) :
    (∀ r ∈ out, IsRoot d r) ∧
      ∀ names, (∃ r ∈ out, r.1 = names) ↔
        (∃ r ∈ acc, r.1 = names) ∨ ∃ p ∈ roots, p.names? = some names := by
  induction roots generalizing acc with
  | nil =>
    cases h
    exact ⟨hacc, fun names => by simp⟩
  | cons root rest ih =>
    obtain ⟨canonical, hc, h⟩ := bind_ok h
    have hnames := canonicalExistingDirectory_ok hc
    obtain ⟨n, hn, hk⟩ := canonicalExistingDirectory_node hc
    have hthis : ∀ names, root.names? = some names ↔ canonical = names := by
      intro names
      rw [hnames, Option.some.injEq]
    split at h
    · -- the root was there already
      rename_i hany
      obtain ⟨r, hr, hrc⟩ := List.any_eq_true.mp hany
      obtain ⟨hroots, hmem⟩ := ih h hacc
      refine ⟨hroots, fun names => (hmem names).trans ?_⟩
      simp only [List.mem_cons, exists_eq_or_imp, hthis]
      constructor
      · rintro (hold | hrest)
        · exact .inl hold
        · exact .inr (.inr hrest)
      · rintro (hold | rfl | hrest)
        · exact .inl hold
        · exact .inl ⟨r, hr, of_decide_eq_true hrc⟩
        · exact .inr hrest
    · rw [hn] at h
      have hacc' : ∀ r ∈ acc ++ [(canonical, n.identity)], IsRoot d r := by
        intro r hr
        rcases List.mem_append.mp hr with hr | hr
        · exact hacc r hr
        · cases List.mem_singleton.mp hr
          exact ⟨n, hn, hk, rfl⟩
      obtain ⟨hroots, hmem⟩ := ih h hacc'
      refine ⟨hroots, fun names => (hmem names).trans ?_⟩
      simp only [List.mem_append, List.mem_cons, List.not_mem_nil, or_false, or_and_right,
        exists_or, exists_eq_left, hthis, or_assoc]

theorem new_ok {d : Disk} {io : Faults} {roots : List Path} {revision : UInt64}
    {limits : AllowlistLimits} {a : Allowlist} (h : new d io roots revision limits = .ok a) :
    a.limits = limits ∧ (∀ r ∈ a.roots, IsRoot d r) ∧
      ∀ names, (∃ r ∈ a.roots, r.1 = names) ↔ ∃ p ∈ roots, p.names? = some names := by
  unfold new at h
  split at h
  · cases h
  split at h
  · split at h
    · cases h
    · cases h
    · rename_i root rest hroots
      cases h
      obtain ⟨hr, hmem⟩ := canonicalRoots_ok hroots (by simp)
      refine ⟨rfl, fun r h => hr r (List.mem_mergeSort.mp h), fun names => ?_⟩
      simp only [List.mem_mergeSort]
      rw [hmem]
      simp
  · cases h

end Allowlist

/-! ## Contained paths -/

/-- The path is absolute, without `..`, below a root, and no component of it is a link. -/
structure Contained (d : Disk) (roots : List Path) (p : Path) (names : List Name) : Prop where
  absolute : p.absolute = true
  plain : p.names? = some names
  links : ∀ xs, xs ≠ [] → xs <+: names → ∀ n, d.lstat xs = some n → n.kind ≠ .symlink
  root : ∃ r ∈ roots, ∃ rs, r.names? = some rs ∧ rs <+: names

/-- A regular file of the current user, with no other name. -/
structure SingleFile (n : Node) : Prop where
  kind : n.kind = .regular
  links : n.links = 1
  owned : n.owned = true

theorem validateRegularFile_iff {n : Node} : validateRegularFile n = .ok () ↔ SingleFile n := by
  unfold validateRegularFile
  constructor
  · intro h
    split at h
    · cases h
    split at h
    · cases h
    split at h
    · cases h
    · rename_i hk hl ho
      exact ⟨not_not.mp hk, not_not.mp hl, by simpa using ho⟩
  · intro h
    rw [if_neg (not_not.mpr h.kind), if_neg (not_not.mpr h.links), if_neg (by simp [h.owned])]

theorem rejectPathComponents_iff {d : Disk} {p : Path} {names : List Name} :
    rejectPathComponents d p = .ok names ↔
      p.absolute = true ∧ p.names? = some names ∧
        ∀ xs, xs ≠ [] → xs <+: names → ∀ n, d.lstat xs = some n → n.kind ≠ .symlink := by
  have hany : ∀ names : List Name, (List.range names.length).any (fun k =>
      (d.lstat (names.take (k + 1))).any (·.kind = .symlink)) = false ↔
        ∀ xs, xs ≠ [] → xs <+: names → ∀ n, d.lstat xs = some n → n.kind ≠ .symlink := by
    intro names
    rw [List.any_eq_false]
    constructor
    · intro h xs hne hxs n hn hk
      have hlen : 0 < xs.length := List.length_pos_iff.mpr hne
      have hmem : xs.length - 1 ∈ List.range names.length :=
        List.mem_range.mpr (by have := hxs.length_le; omega)
      refine h _ hmem ?_
      rw [Nat.sub_add_cancel hlen, ← List.prefix_iff_eq_take.mp hxs, hn]
      simpa using hk
    · intro h k hk hl
      have hlen : k < names.length := List.mem_range.mp hk
      have hne : names.take (k + 1) ≠ [] := by
        intro hnil
        have := congrArg List.length hnil
        rw [List.length_take, List.length_nil] at this
        omega
      cases hn : d.lstat (names.take (k + 1)) with
      | none =>
        rw [hn] at hl
        cases hl
      | some n =>
        rw [hn] at hl
        exact h _ hne (List.take_prefix _ _) n hn (by simpa using hl)
  unfold rejectPathComponents
  cases ha : p.absolute with
  | false => simp
  | true =>
    cases hn : p.names? with
    | none => simp
    | some ns =>
      rw [if_neg (by simp)]
      dsimp only
      constructor
      · intro h
        split at h
        · cases h
        · rename_i hno
          cases h
          exact ⟨rfl, rfl, (hany names).mp (by simpa using hno)⟩
      · rintro ⟨-, heq, hlinks⟩
        cases heq
        rw [if_neg (by rw [(hany names).mpr hlinks]; simp)]

theorem canonicalize_iff {d : Disk} {p : Path} {names out : List Name} :
    canonicalize d noFaults p names = .ok out ↔
      out = names ∧ ∃ n, d.lstat names = some n ∧ (p.trailing = true → n.kind = .directory) := by
  unfold canonicalize
  cases hn : d.lstat names with
  | none => simp
  | some n =>
    dsimp only
    constructor
    · intro h
      split at h
      · cases h
      · rename_i hno
        cases h
        refine ⟨rfl, n, rfl, fun ht => ?_⟩
        by_contra hk
        exact hno (.inr ⟨ht, hk⟩)
    · rintro ⟨rfl, _, ⟨⟩, hk⟩
      rw [if_neg]
      rintro (hf | ⟨ht, hne⟩)
      · cases hf
      · exact hne (hk ht)

namespace Allowlist

variable {d : Disk} {roots : List Path} {revision : UInt64} {limits : AllowlistLimits}
  {a : Allowlist}

theorem inRoot_iff (ha : new d noFaults roots revision limits = .ok a) {names : List Name} :
    a.inRoot names = true ↔ ∃ r ∈ roots, ∃ rs, r.names? = some rs ∧ rs <+: names := by
  have hroots := (new_ok ha).2.2
  rw [inRoot, List.any_eq_true]
  constructor
  · rintro ⟨r, hr, hp⟩
    obtain ⟨p, hp', hn⟩ := (hroots r.1).mp ⟨r, hr, rfl⟩
    exact ⟨p, hp', r.1, hn, List.isPrefixOf_iff_prefix.mp hp⟩
  · rintro ⟨p, hp, rs, hn, hpre⟩
    obtain ⟨r, hr, rfl⟩ := (hroots rs).mpr ⟨p, hp, hn⟩
    exact ⟨r, hr, List.isPrefixOf_iff_prefix.mpr hpre⟩

theorem foldl_longer_some (rs : List (List Name × (Nat × Nat))) (b : List Name × (Nat × Nat)) :
    ∃ r, rs.foldl longer (some b) = some r := by
  induction rs generalizing b with
  | nil => exact ⟨b, rfl⟩
  | cons x rs ih =>
    rw [List.foldl_cons, longer]
    split
    · exact ih x
    · exact ih b

/-- The root that is taken is one of them, above the path. -/
theorem relativeToRoot_of {names : List Name} (h : a.inRoot names = true) :
    ∃ r ∈ a.roots, r.1 <+: names ∧
      a.relativeToRoot names = .ok (r.1, r.2, names.drop r.1.length) := by
  obtain ⟨r0, hr0, hp0⟩ := List.any_eq_true.mp h
  have hmem0 : r0 ∈ a.roots.filter fun r => r.1.isPrefixOf names := List.mem_filter.mpr ⟨hr0, hp0⟩
  obtain ⟨x, xs, hxs⟩ := List.exists_cons_of_ne_nil (List.ne_nil_of_mem hmem0)
  have hsome : ∃ r, (a.roots.filter fun r => r.1.isPrefixOf names).foldl longer none = some r := by
    rw [hxs]
    exact foldl_longer_some xs x
  obtain ⟨r, hr⟩ := hsome
  have hmem := List.mem_filter.mp ((mem_foldl_longer hr).resolve_left (by simp))
  refine ⟨r, hmem.1, List.isPrefixOf_iff_prefix.mp hmem.2, ?_⟩
  rw [relativeToRoot, hr]

/-- Within what is left of the limits. -/
structure Fits (limits : AllowlistLimits) (total count size : Nat) : Prop where
  count : count < limits.maxFileCount
  file : size ≤ limits.maxFileBytes
  total : total + size ≤ limits.maxTotalBytes

/-- The file that `openInput` lets through. -/
structure AcceptedInput (d : Disk) (roots : List Path) (limits : AllowlistLimits) (p : Path)
    (total count : Nat) (f : ValidatedInputFile) (n : Node) : Prop where
  contained : Contained d roots p f.path
  notDirectory : p.trailing = false
  node : d.lstat f.path = some n
  single : SingleFile n
  fits : Fits limits total count n.bytes.length
  size : f.sizeBytes = n.bytes.length
  bytes : f.bytes = n.bytes

theorem checkRequestBudget_of {total count size : Nat} (h : Fits a.limits total count size) :
    a.checkRequestBudget total count = .ok () := by
  have := h.count
  have := h.total
  rw [checkRequestBudget, if_neg (by omega), if_neg (by omega)]

theorem openInput_accepted (ha : new d noFaults roots revision limits = .ok a) {p : Path}
    {total count : Nat} {f : ValidatedInputFile}
    (h : a.openInput d noFaults p total count = .ok f) :
    ∃ n, AcceptedInput d roots limits p total count f n := by
  obtain ⟨hcount, hfile, htotal, -, n, hn, hsize⟩ := openInput_ok h
  rw [(new_ok ha).1] at hcount hfile htotal
  obtain ⟨_, -, h⟩ := bind_ok h
  obtain ⟨canonical, hc, h⟩ := bind_ok h
  obtain ⟨⟨root, id, rel⟩, hr, h⟩ := bind_ok h
  obtain ⟨file, ho, h⟩ := bind_ok h
  obtain ⟨_, hreg, h⟩ := bind_ok h
  obtain ⟨names, hnames, hc⟩ := bind_ok hc
  obtain ⟨out, hcan, hc⟩ := bind_ok hc
  split at hc
  swap
  · cases hc
  rename_i hroot
  cases hc
  obtain ⟨rfl, m, hm, htrailing⟩ := canonicalize_iff.mp hcan
  obtain ⟨habsolute, hplain, hlinks⟩ := rejectPathComponents_iff.mp hnames
  have hf : f = ⟨canonical, file.bytes.length, file.bytes⟩ := by
    split at h
    · cases h
    split at h
    · cases h
    split at h
    · cases h
    · cases h
      rfl
  subst hf
  have hfile' : d canonical = some file := by
    obtain ⟨_, -, ho⟩ := bind_ok ho
    split at ho
    · cases ho
    rw [relativeToRoot_ok hr] at ho
    split at ho
    · cases ho
    · rename_i n' hn'
      split at ho
      · cases ho
      · cases ho
        exact hn'
  have hm' := (Disk.lstat_some hm).1
  rw [hfile'] at hm'
  cases hm'
  have hsingle := validateRegularFile_iff.mp hreg
  refine ⟨file, ⟨habsolute, hplain, hlinks, (inRoot_iff ha).mp hroot⟩, ?_, hm, hsingle,
    ⟨hcount, hfile, htotal⟩, rfl, rfl⟩
  by_contra ht
  have hk := htrailing (by simpa using ht)
  rw [hsingle.kind] at hk
  cases hk

/-- The directory of a path below a root can be opened from the root. -/
theorem openBeneathDirectory_below {r : List Name × (Nat × Nat)} {rel : List Name} {n : Node}
    (hr : IsRoot d r) (hn : d.lstat (r.1 ++ rel) = some n) (hk : n.kind = .directory) :
    openBeneathDirectory d r.1 r.2 rel = .ok n := by
  obtain ⟨m, hm, hmk, hid⟩ := hr
  have hchain := (Disk.chain_append [] r.1 rel).mp (Disk.chain_of_lstat hn hk)
  exact openBeneathDirectory_of hm hmk hid hchain.2 (Disk.lstat_some hn).1

theorem openInput_of (ha : new d noFaults roots revision limits = .ok a) {p : Path}
    {total count : Nat} {names : List Name} {n : Node} (hc : Contained d roots p names)
    (ht : p.trailing = false) (hn : d.lstat names = some n) (hs : SingleFile n)
    (hf : Fits limits total count n.bytes.length) :
    a.openInput d noFaults p total count = .ok ⟨names, n.bytes.length, n.bytes⟩ := by
  obtain ⟨hlimits, hroots, -⟩ := new_ok ha
  rw [← hlimits] at hf
  have hfile := hf.file
  have htotal := hf.total
  have hmax := a.limits_valid.total_lt
  have hin : a.inRoot names = true := (inRoot_iff ha).mpr hc.root
  obtain ⟨r, hr, ⟨rel, rfl⟩, hrel⟩ := relativeToRoot_of hin
  rw [List.drop_left] at hrel
  have hreject := rejectPathComponents_iff.mpr ⟨hc.absolute, hc.plain, hc.links⟩
  have hcanonical : canonicalize d noFaults p (r.1 ++ rel) = .ok (r.1 ++ rel) :=
    canonicalize_iff.mpr ⟨rfl, n, hn, fun h => by rw [ht] at h; cases h⟩
  have htarget : a.canonicalTarget d noFaults p = .ok (r.1 ++ rel) := by
    rw [canonicalTarget, hreject, ok_bind, hcanonical, ok_bind, if_pos hin]
  have hrel_ne : rel ≠ [] := by
    rintro rfl
    obtain ⟨m, hm, hk, -⟩ := hroots r hr
    rw [List.append_nil, hm] at hn
    cases hn
    rw [hs.kind] at hk
    cases hk
  have hparent : ∃ m, openBeneathDirectory d r.1 r.2 rel.dropLast = .ok m := by
    have hchain := (Disk.lstat_some hn).2 (by simp [hrel_ne])
    rw [List.dropLast_append_of_ne_nil hrel_ne] at hchain
    obtain ⟨m, hm, hk⟩ := Disk.lstat_of_chain hchain
    exact ⟨m, openBeneathDirectory_below (hroots r hr) hm hk⟩
  obtain ⟨m, hm⟩ := hparent
  have hopen : openBeneath d noFaults r.1 r.2 rel = .ok n := by
    rw [openBeneath, hm, ok_bind, if_neg hrel_ne, (Disk.lstat_some hn).1]
    dsimp only
    rw [if_neg (by rw [hs.kind]; simp), if_neg (by simp [noFaults])]
  have hsat : ¬ a.limits.maxTotalBytes < saturatingAdd64 total n.bytes.length := by
    unfold saturatingAdd64
    omega
  rw [openInput, checkRequestBudget_of hf, ok_bind, htarget, ok_bind, hrel, ok_bind]
  dsimp only
  rw [hopen, ok_bind, validateRegularFile_iff.mpr hs, ok_bind, if_neg (by omega), if_neg hsat,
    if_neg (by simp [noFaults])]

theorem targetIdentity_single {candidate : List Name} {t : Option (Nat × Nat)}
    (h : targetIdentity d noFaults candidate = .ok t) {n : Node}
    (hn : d.lstat candidate = some n) : SingleFile n := by
  unfold targetIdentity at h
  split at h
  · cases h
  rw [hn] at h
  dsimp only at h
  split at h
  · cases h
  · obtain ⟨_, hreg, -⟩ := bind_ok h
    exact validateRegularFile_iff.mp hreg

/-- The target that `validateOutput` lets through, in the directory `names`. -/
structure AcceptedOutput (d : Disk) (roots : List Path) (p parent : Path) (names : List Name)
    (v : ValidatedOutputPath) : Prop where
  hasParent : p.parent = some parent
  fileName : p.fileName = some v.fileName
  contained : Contained d roots parent names
  directory : ∃ n, d.lstat names = some n ∧ n.kind = .directory
  path : v.path = names ++ [v.fileName]
  target : ∀ n, d.lstat v.path = some n → SingleFile n

theorem validateOutput_accepted (ha : new d noFaults roots revision limits = .ok a) {p : Path}
    {total count size : Nat} {v : ValidatedOutputPath}
    (h : a.validateOutput d noFaults p total count size = .ok v) :
    ∃ parent names, AcceptedOutput d roots p parent names v := by
  obtain ⟨_, -, h⟩ := bind_ok h
  split at h
  · cases h
  split at h
  · rename_i parent name hp hn
    obtain ⟨canonicalParent, hc, h⟩ := bind_ok h
    split at h
    · cases h
    rename_i hroot
    obtain ⟨target, ht, h⟩ := bind_ok h
    split at h
    · cases h
    obtain ⟨⟨root, id, rel⟩, -, h⟩ := bind_ok h
    obtain ⟨handle, -, h⟩ := bind_ok h
    cases h
    have hdirectory := canonicalExistingDirectory_node hc
    have hplain := canonicalExistingDirectory_ok hc
    obtain ⟨names, hnames, -⟩ := bind_ok hc
    obtain ⟨habsolute, hplain', hlinks⟩ := rejectPathComponents_iff.mp hnames
    rw [hplain] at hplain'
    cases hplain'
    exact ⟨parent, canonicalParent, hp, hn,
      ⟨habsolute, hplain, hlinks, (inRoot_iff ha).mp (by simpa using hroot)⟩, hdirectory, rfl,
      fun n hn => targetIdentity_single ht hn⟩
  · cases h

/-! ## Nothing outside the roots -/

/-- A path is below a root. -/
def BelowRoot (roots : List Path) (q : List Name) : Prop :=
  ∃ r ∈ roots, ∃ rs, r.names? = some rs ∧ rs <+: q

theorem AcceptedInput.denotes {p : Path} {total count : Nat} {f : ValidatedInputFile} {n : Node}
    (h : AcceptedInput d roots limits p total count f n) {links : List Name → Path}
    {q : List Name} (hq : Denotes d links [] p.components q) : q = f.path ∧ BelowRoot roots q := by
  rw [components_of_names h.contained.plain] at hq
  have heq : q = f.path := hq.eq fun xs _ hxs m hm => by
    refine no_link_of_lstat h.node ?_ xs hxs m hm
    rw [h.single.kind]
    exact nofun
  exact ⟨heq, heq ▸ h.contained.root⟩

theorem components_of_parent {p parent : Path} {name : Name} (hp : p.parent = some parent)
    (hn : p.fileName = some name) : p.components = parent.components ++ [.normal name] := by
  unfold Path.parent at hp
  split at hp
  · cases hp
  · rename_i hne
    cases hp
    unfold Path.fileName at hn
    split at hn
    · rename_i n hlast
      cases hn
      obtain ⟨init, hinit⟩ := List.getLast?_eq_some_iff.mp hlast
      rw [hinit, List.dropLast_concat]
    · cases hn

theorem AcceptedOutput.denotes {p parent : Path} {names : List Name} {v : ValidatedOutputPath}
    (h : AcceptedOutput d roots p parent names v) {links : List Name → Path} {q : List Name}
    (hq : Denotes d links [] p.components q) : q = v.path ∧ BelowRoot roots q := by
  obtain ⟨n, hn, hk⟩ := h.directory
  have hcomponents : p.components = v.path.map .normal := by
    rw [components_of_parent h.hasParent h.fileName, components_of_names h.contained.plain, h.path,
      List.map_append]
    rfl
  have hchain := Disk.chain_of_lstat hn hk
  rw [hcomponents] at hq
  have heq : q = v.path := hq.eq fun xs _ hxs m hm => by
    rw [List.nil_append] at hm
    rw [h.path] at hxs
    rcases List.prefix_concat_iff.mp hxs with rfl | hxs
    · have hl : d.lstat (names ++ [v.fileName]) = some m :=
        Disk.lstat_of hm fun _ => by rwa [List.dropLast_concat]
      have hs := h.target m (h.path ▸ hl)
      rw [hs.kind]
      exact nofun
    · exact no_link_of_lstat hn (by rw [hk]; exact nofun) xs hxs m hm
  obtain ⟨r, hr, rs, hrs, hpre⟩ := h.contained.root
  exact ⟨heq, r, hr, rs, hrs, heq ▸ h.path ▸ hpre.trans (List.prefix_append _ _)⟩

/-- **Containment is exact.** -/
theorem containment_exact (ha : new d noFaults roots revision limits = .ok a) (p : Path)
    (total count : Nat) :
    ((∃ f, a.openInput d noFaults p total count = .ok f) ↔
      ∃ names n, Contained d roots p names ∧ p.trailing = false ∧ d.lstat names = some n ∧
        SingleFile n ∧ Fits limits total count n.bytes.length) ∧
    (∀ size v, a.validateOutput d noFaults p total count size = .ok v →
      ∃ parent names, AcceptedOutput d roots p parent names v) ∧
    (∀ (links : List Name → Path) (q : List Name), Denotes d links [] p.components q →
      (∃ f, a.openInput d noFaults p total count = .ok f) ∨
        (∃ size v, a.validateOutput d noFaults p total count size = .ok v) →
      BelowRoot roots q) := by
  refine ⟨⟨?_, ?_⟩, fun size v h => validateOutput_accepted ha h, ?_⟩
  · rintro ⟨f, h⟩
    obtain ⟨n, hf⟩ := openInput_accepted ha h
    exact ⟨f.path, n, hf.contained, hf.notDirectory, hf.node, hf.single, hf.fits⟩
  · rintro ⟨names, n, hc, ht, hn, hs, hf⟩
    exact ⟨_, openInput_of ha hc ht hn hs hf⟩
  · rintro links q hq (⟨f, h⟩ | ⟨size, v, h⟩)
    · obtain ⟨n, hf⟩ := openInput_accepted ha h
      exact (hf.denotes hq).2
    · obtain ⟨parent, names, hv⟩ := validateOutput_accepted ha h
      exact (hv.denotes hq).2

/-! ## A root with one file -/

def oneFile : Node := ⟨.regular, (1, 3), 1, true, true, [1, 2, 3]⟩

/-- `/w/a`. -/
def oneFileDisk : Disk := fun p =>
  if p = [] then some ⟨.directory, (1, 1), 2, true, true, []⟩
  else if p = [.text "w"] then some ⟨.directory, (1, 2), 2, true, true, []⟩
  else if p = [.text "w", .text "a"] then some oneFile
  else none

def oneFileAllowlist : Allowlist :=
  ⟨[([.text "w"], (1, 2))], .default, AllowlistLimits.default_valid⟩

theorem oneFileAllowlist_new :
    new oneFileDisk noFaults [.ofText "/w"] 1 .default = .ok oneFileAllowlist := by
  have hroots : canonicalRoots oneFileDisk noFaults [] [.ofText "/w"] =
      .ok [([.text "w"], (1, 2))] := rfl
  rw [new, if_neg (by decide), dif_pos AllowlistLimits.default_valid, hroots]
  dsimp only
  simp only [List.mergeSort_singleton]
  rfl

theorem oneFile_lstat : oneFileDisk.lstat [.text "w", .text "a"] = some oneFile :=
  rfl

theorem oneFile_single : SingleFile oneFile := ⟨rfl, rfl, rfl⟩

theorem oneFile_fits : Fits .default 0 0 oneFile.bytes.length := ⟨by decide, by decide, by decide⟩

theorem oneFile_contained {p : Path} (ha : p.absolute = true)
    (hn : p.names? = some [.text "w", .text "a"]) :
    Contained oneFileDisk [.ofText "/w"] p [.text "w", .text "a"] where
  absolute := ha
  plain := hn
  links := fun xs _ hxs n hl =>
    no_link_of_lstat oneFile_lstat nofun xs hxs n (Disk.lstat_some hl).1
  root := ⟨_, List.mem_singleton_self _, [.text "w"], rfl, [.text "a"], rfl⟩

theorem containment_exact_one :
    ∃ f, oneFileAllowlist.openInput oneFileDisk noFaults (.ofText "/w/a") 0 0 = .ok f :=
  (containment_exact oneFileAllowlist_new _ 0 0).1.mpr
    ⟨_, _, oneFile_contained rfl rfl, rfl,
      oneFile_lstat, oneFile_single, oneFile_fits⟩

/-- `/w/a/.` has the components of `/w/a` and does not end in a separator. -/
theorem trailing_dot_refused :
    ¬ ∀ (d : Disk) (roots : List Path) (revision : UInt64) (limits : AllowlistLimits)
      (a : Allowlist) (text : String) (total count : Nat),
      new d noFaults roots revision limits = .ok a →
      ((∃ f, a.openInput d noFaults (.ofText text) total count = .ok f) ↔
        ∃ names n, Contained d roots (.ofText text) names ∧ text.toList.getLast? ≠ some '/' ∧
          d.lstat names = some n ∧ SingleFile n ∧ Fits limits total count n.bytes.length) := by
  intro h
  obtain ⟨f, hf⟩ := (h _ _ _ _ _ "/w/a/." 0 0 oneFileAllowlist_new).mpr
    ⟨_, _, oneFile_contained rfl rfl, by decide, oneFile_lstat,
      oneFile_single, oneFile_fits⟩
  obtain ⟨n, hn⟩ := openInput_accepted oneFileAllowlist_new hf
  have htrailing : (Path.ofText "/w/a/.").trailing = true := rfl
  rw [hn.notDirectory] at htrailing
  cases htrailing

end Allowlist

end Protocol
end EgoBridge
