import EgoBridge.Device.Migration

/-!
# Device.Resumed

What a migration of the store leaves behind, however often it is interrupted, and when it can be
taken up again.

* `Attempts`, `Ends`   — what attempts come to, and where a run without a fault ends.
* `Safe`               — nothing is moved in vain, lost or overwritten, and an attempt that was left
  anywhere can be taken up again.
* `migration_safe_iff` — when a migration is safe.
* `migration_stuck`    — one that cannot be taken up again.
-/

namespace EgoBridge
namespace Device
namespace Migration

open Protocol Json Crash Files

/-! ## Where the files are -/

theorem files_tidied (k : Disk) (path other : String) (name : Name) :
    (k.tidied path).files other name = k.files other name := by
  rw [Disk.tidied]
  split_ifs with h
  · by_cases ho : other = path
    · subst ho
      rw [h name, Disk.files, Disk.put_self, Option.bind_none]
    · rw [Disk.files, Disk.put_of_ne ho, ← Disk.files]
  · rfl

section

variable {u : User} {k k' : Disk} {legacy canonical : String} {l c : Folder}

/-- Which files a disk between the two ends has moved. -/
theorem files_between (hb : Between legacy canonical k k') :
    ∃ names, (∀ t ∈ names, t ∈ k.stateFiles legacy) ∧
      ∀ path name, k'.files path name = (k.moved legacy canonical names).files path name := by
  rcases hb with ⟨names, hn, rfl⟩ | rfl
  · exact ⟨names, hn, fun _ _ => rfl⟩
  · exact ⟨_, fun t ht => ht, files_tidied _ _⟩

/-- A file that is moved is in the canonical directory, and every other file is where it was. -/
theorem files_moved (h : Ready u legacy canonical k l c) (names : List String) {name : Name}
    {n : Node} (hf : k.files legacy name = some n) :
    (k.moved legacy canonical names).files (if name ∈ names.map .text then canonical else legacy)
      name = some n := by
  have hl := h.accepted.there
  rw [files_of_dirs hl] at hf
  split_ifs with hm
  · rw [files_of_dirs (Disk.moved_canonical hl h.there names), Folder.adding]
    simp only [hm, ↓reduceIte, hf]
  · rw [files_of_dirs (Disk.moved_legacy h.ne hl h.there names), Folder.without]
    simp only [hm, ↓reduceIte, hf]

theorem files_moved_canonical (h : Ready u legacy canonical k l c) {names : List String}
    (hn : ∀ t ∈ names, t ∈ k.stateFiles legacy) {name : Name} {n : Node}
    (hf : k.files canonical name = some n) :
    (k.moved legacy canonical names).files canonical name = some n := by
  have hl := h.accepted.there
  rw [files_of_dirs h.there] at hf
  rw [files_of_dirs (Disk.moved_canonical hl h.there names), Folder.adding]
  by_cases hm : name ∈ names.map .text
  · obtain ⟨t, ht, rfl⟩ := List.mem_map.mp hm
    obtain ⟨hs, hthere⟩ := mem_stateFiles.mp (hn t ht)
    rw [files_of_dirs hl] at hthere
    rw [h.apart t hs hthere] at hf
    cases hf
  · simp only [hm, ↓reduceIte, hf]

theorem canonical_between (h : Ready u legacy canonical k l c)
    (hb : Between legacy canonical k k') :
    ∃ f, k'.dirs canonical = some f ∧ f.metadata = c.metadata := by
  rcases hb with ⟨names, hn, rfl⟩ | rfl
  · exact ⟨_, Disk.moved_canonical h.accepted.there h.there names, rfl⟩
  · refine ⟨c.adding l (k.stateFiles legacy), ?_, rfl⟩
    rw [Disk.settled, Disk.tidied]
    split_ifs
    · rw [Disk.put_of_ne h.ne.symm, Disk.moved_canonical h.accepted.there h.there]
    · exact Disk.moved_canonical h.accepted.there h.there _

end

/-! ## Taking a migration up again -/

section

variable (u : User) (legacy canonical : String)

/-- Any operation may fail, but a file at a destination is seen. -/
def mayFail (operation : Operation) : Prop := ∀ name, operation ≠ .entryMetadata canonical name

/-- A migration meets the disk: it may have been interrupted there, or have failed, or be done. -/
def Attempt (k k' : Disk) : Prop :=
  (migrateLegacyDeviceStore u legacy canonical).Passes (surroundings (mayFail canonical)) k k'

def Attempts : Disk → Disk → Prop := Relation.ReflTransGen (Attempt u legacy canonical)

def Succeeds (k k' : Disk) : Prop :=
  (migrateLegacyDeviceStore u legacy canonical).Returns (surroundings (mayFail canonical)) k () k'

/-- A migration that nothing interrupts or makes fail succeeds. -/
def Ends (k k' : Disk) : Prop :=
  (migrateLegacyDeviceStore u legacy canonical).Returns (surroundings fun _ => False) k () k'

/-- Such a migration refuses what it finds. -/
def Refuses (k k' : Disk) : Prop :=
  ∃ e, (migrateLegacyDeviceStore u legacy canonical).Fails (surroundings fun _ => False) k e k'

structure Safe (k : Disk) : Prop where
  /-- A known file that is not the owner's alone, or that is in both places, keeps all where they
  are. -/
  refused : ∀ t ∈ DEVICE_STORE_STATE_FILES, ∀ n, k.files legacy (.text t) = some n →
    ¬ u.Owns n ∨ k.files canonical (.text t) ≠ none →
    ∀ k', Attempts u legacy canonical k k' → ∀ path name, k'.files path name = k.files path name
  moved : ∀ k' k'', Attempts u legacy canonical k k' → Succeeds u legacy canonical k' k'' →
    (∀ t ∈ DEVICE_STORE_STATE_FILES, ∀ n, k.files legacy (.text t) = some n →
      k''.files canonical (.text t) = some n) ∧
    ∀ name n, k.files canonical name = some n → k''.files canonical name = some n
  kept : ∀ k', Attempts u legacy canonical k k' →
    (∀ name n, k.files legacy name = some n →
      k'.files legacy name = some n ∨ k'.files canonical name = some n) ∧
    ∀ name n, k.files canonical name = some n → k'.files canonical name = some n
  resumed : ∀ k', Attempts u legacy canonical k k' → ∀ k'',
    (Ends u legacy canonical k' k'' ↔ Ends u legacy canonical k k'') ∧
      (Refuses u legacy canonical k' k'' ↔ Refuses u legacy canonical k k'')

/-- The canonical directory does not have to be made, or is made as it is to be. -/
def Prepared (k : Disk) : Prop :=
  legacy = canonical ∨ (∀ l, ¬ Accepted u legacy k l) ∨ (k.dirs canonical).isSome ∨
    u.masked 0o777 = 0o700

end

theorem exists_lists (k : Disk) (path : String) : ∃ names, k.Lists path names := by
  cases h : k.dirs path with
  | none =>
    refine ⟨[], List.nodup_nil, ?_⟩
    intro name
    simp [Disk.files, h]
  | some f =>
    have hf : {name | f.entries name ≠ none}.Finite := f.finite
    refine ⟨hf.toFinset.toList, Finset.nodup_toList _, ?_⟩
    intro name
    rw [Finset.mem_toList, Set.Finite.mem_toFinset, Set.mem_ofPred_eq, files_of_dirs h]

theorem exists_answer (may : Operation → Prop) (k : Disk) (q : Ask) :
    ∃ a, surroundings may k q a := by
  cases q with
  | entries path => exact exists_lists k path
  | fails operation => exact ⟨false, fun h => (by cases h)⟩

theorem not_mayFail {canonical : String} (name : Name) :
    ¬ mayFail canonical (.entryMetadata canonical name) :=
  fun h => h name rfl

section

variable {u : User} {k k' : Disk} {legacy canonical : String} {l c : Folder}

theorem ends_of_wp {k₁ : Disk} (hw : Cmd.wp (surroundings fun _ => False) (fun _ => True)
      (fun _ _ => False) (migrateLegacyDeviceStore u legacy canonical) (fun _ k' => k' = k₁) k)
    (k' : Disk) :
    (Ends u legacy canonical k k' ↔ k' = k₁) ∧ ¬ Refuses u legacy canonical k k' := by
  refine ⟨⟨fun h => Cmd.wp_returns (R := fun _ k' => k' = k₁) h hw, ?_⟩, ?_⟩
  · rintro rfl
    obtain ⟨a, k', hr, rfl⟩ := Cmd.exists_returns (exists_answer _) hw
    exact hr
  · rintro ⟨e, he⟩
    exact Cmd.wp_fails he hw

theorem ends_of_ready (h : Ready u legacy canonical k l c) (k' : Disk) :
    (Ends u legacy canonical k k' ↔ k' = k.settled legacy canonical) ∧
      ¬ Refuses u legacy canonical k k' := by
  refine ends_of_wp ?_ k'
  refine wp_of_ready (fun _ hm => hm) h (fun _ _ => trivial) ?_ ?_ rfl
  · rintro ⟨operation, hm⟩
    exact hm.elim
  · rintro ⟨operation, hm⟩
    exact hm.elim

/-- Wherever a migration has got to, it ends where it would have. -/
theorem ends_of_between (h : Ready u legacy canonical k l c) (hb : Between legacy canonical k k')
    (k'' : Disk) : (Ends u legacy canonical k' k'' ↔ k'' = k.settled legacy canonical) ∧
      ¬ Refuses u legacy canonical k' k'' := by
  rcases between_cases hb with ⟨names, hn, rfl⟩ | ⟨hk', hnone⟩
  · rw [← settled_moved h.ne h.accepted.there h.there hn]
    exact ends_of_ready (h.moved names) k''
  · rw [← hk']
    refine ends_of_wp (wp_idle (.inr hnone) trivial ?_ rfl) k''
    rintro ⟨operation, hm⟩
    exact hm.elim

theorem attempts_of_idle (h : Idle u legacy canonical k) (ha : Attempts u legacy canonical k k') :
    k' = k := by
  induction ha with
  | refl => rfl
  | tail _ hs ih =>
    rw [ih] at hs
    exact Cmd.wp_passes (I := (· = k)) (F := fun _ => (· = k)) (R := fun _ => (· = k)) hs
      (wp_of_idle not_mayFail h rfl (fun _ => rfl) fun _ => rfl) (fun _ _ h => h) (fun _ _ h => h)

theorem idle_of_none (h : k.dirs legacy = none) : Idle u legacy canonical k := by
  refine .inr (.inl fun l hl => ?_)
  have ht := hl.there
  rw [h] at ht
  cases ht

theorem between_step {k₁ : Disk} (h : Ready u legacy canonical k l c)
    (hb : Between legacy canonical k k') (hs : Attempt u legacy canonical k' k₁) :
    Between legacy canonical k k₁ := by
  rcases between_cases hb with ⟨names, hn, rfl⟩ | ⟨-, hnone⟩
  · refine between_moved h hn ?_
    refine Cmd.wp_passes (I := Between legacy canonical (k.moved legacy canonical names))
      (F := fun _ => Between legacy canonical (k.moved legacy canonical names))
      (R := fun _ => Between legacy canonical (k.moved legacy canonical names)) hs ?_
      (fun _ _ h => h) (fun _ _ h => h)
    exact wp_of_ready not_mayFail (h.moved names) (fun _ hk => hk) (fun _ _ hk => hk)
      (fun _ => .inl ⟨_, fun t ht => ht, rfl⟩) (.inr rfl)
  · rw [attempts_of_idle (idle_of_none hnone) (.single hs)]
    exact hb

theorem attempts_of_ready (h : Ready u legacy canonical k l c)
    (ha : Attempts u legacy canonical k k') : Between legacy canonical k k' := by
  induction ha with
  | refl => exact .inl ⟨[], by simp, (Disk.moved_nil h.accepted.there h.there).symm⟩
  | tail _ hs ih => exact between_step h ih hs

/-- The directory is made at once as it is to be. -/
theorem attempts_of_accepted (hm : u.masked 0o777 = 0o700) (h : Accepted u legacy k l)
    (hne : legacy ≠ canonical) (hc : k.dirs canonical = none)
    (ha : Attempts u legacy canonical k k') :
    (∃ missing, k' = { k with missing }) ∨
      Between legacy canonical (k.made u canonical 0o700) k' := by
  have hready : Ready u legacy canonical (k.made u canonical 0o700) l
      ((createdDirectory u).withMode 0o700) :=
    h.made hne
  induction ha with
  | refl => exact .inl ⟨k.missing, rfl⟩
  | tail _ hs ih =>
    rcases ih with ⟨missing, rfl⟩ | hb
    · have h' : Accepted u legacy { k with missing } l := ⟨h.there, h.directory, h.entries⟩
      have hstart : Between legacy canonical (k.made u canonical 0o700)
          (k.made u canonical 0o700) :=
        .inl ⟨[], by simp, (Disk.moved_nil hready.accepted.there hready.there).symm⟩
      refine Cmd.wp_passes (F := fun _ k' => (∃ missing, k' = { k with missing }) ∨
          Between legacy canonical (k.made u canonical 0o700) k')
        (R := fun _ k' => (∃ missing, k' = { k with missing }) ∨
          Between legacy canonical (k.made u canonical 0o700) k') hs ?_
        (fun _ _ h => h) (fun _ _ h => h)
      refine wp_of_accepted not_mayFail h' hne hc (fun missing => .inl ⟨missing, rfl⟩) ?_
        (fun k' hk' => .inr hk') (fun _ _ _ hk' => hk') ?_ (.inr (.inr rfl))
      · rw [hm]
        exact .inr hstart
      · rintro - k' rfl
        refine .inr (.inl ⟨_, fun t ht => ?_, rfl⟩)
        rw [mem_stateFiles, files_of_dirs hready.accepted.there]
        rwa [mem_stateFiles, files_of_dirs h'.there] at ht
    · exact .inr (between_step hready hb hs)

theorem ends_of_accepted (h : Accepted u legacy k l) (hne : legacy ≠ canonical)
    (hc : k.dirs canonical = none) (k' : Disk) :
    (Ends u legacy canonical k k' ↔
        k' = (k.made u canonical 0o700).settled legacy canonical) ∧
      ¬ Refuses u legacy canonical k k' := by
  refine ends_of_wp ?_ k'
  refine wp_of_accepted (fun _ hm => hm) h hne hc (fun _ => trivial) trivial (fun _ _ => trivial)
    ?_ ?_ rfl
  · rintro ⟨operation, hm⟩
    exact hm.elim
  · rintro ⟨operation, hm⟩
    exact hm.elim

/-- A migration that succeeds has moved everything, whatever has been done before it. -/
theorem files_of_success {k'' : Disk} (h : Ready u legacy canonical k l c)
    (hb : Between legacy canonical k k') (hs : Succeeds u legacy canonical k' k'') (path : String)
    (name : Name) : k''.files path name =
      (k.moved legacy canonical (k.stateFiles legacy)).files path name := by
  rcases between_cases hb with ⟨names, hn, rfl⟩ | ⟨hk', hnone⟩
  · refine Cmd.wp_returns (I := fun _ => True) (F := fun _ _ => True) (R := fun _ k'' =>
      k''.files path name = (k.moved legacy canonical (k.stateFiles legacy)).files path name) hs ?_
    refine wp_of_ready not_mayFail (h.moved names) (fun _ _ => trivial) (fun _ _ _ => trivial)
      (fun _ => ?_) ?_
    · rw [moved_rest h.ne h.accepted.there h.there hn]
    · rw [settled_moved h.ne h.accepted.there h.there hn, Disk.settled, files_tidied]
  · refine Cmd.wp_returns (I := fun _ => True) (F := fun _ _ => True) (R := fun _ k'' =>
      k''.files path name = (k.moved legacy canonical (k.stateFiles legacy)).files path name) hs ?_
    refine wp_idle (.inr hnone) trivial (fun _ => trivial) ?_
    rw [hk', Disk.settled, files_tidied]

theorem files_kept (h : Ready u legacy canonical k l c) (hb : Between legacy canonical k k') :
    (∀ name n, k.files legacy name = some n →
      k'.files legacy name = some n ∨ k'.files canonical name = some n) ∧
    ∀ name n, k.files canonical name = some n → k'.files canonical name = some n := by
  obtain ⟨names, hn, hfiles⟩ := files_between hb
  constructor
  · intro name n hf
    have hm := files_moved h names hf
    rw [hfiles, hfiles]
    split_ifs at hm
    · exact .inr hm
    · exact .inl hm
  · intro name n hf
    rw [hfiles]
    exact files_moved_canonical h hn hf

theorem files_complete (h : Ready u legacy canonical k l c) :
    (∀ t ∈ DEVICE_STORE_STATE_FILES, ∀ n, k.files legacy (.text t) = some n →
      (k.moved legacy canonical (k.stateFiles legacy)).files canonical (.text t) = some n) ∧
    ∀ name n, k.files canonical name = some n →
      (k.moved legacy canonical (k.stateFiles legacy)).files canonical name = some n := by
  constructor
  · intro t ht n hf
    have hmem : t ∈ k.stateFiles legacy := by
      rw [mem_stateFiles, hf]
      exact ⟨ht, Option.some_ne_none n⟩
    have hm := files_moved h (k.stateFiles legacy) hf
    rw [if_pos (text_mem_map.mpr hmem)] at hm
    exact hm
  · intro name n hf
    exact files_moved_canonical h (fun t ht => ht) hf

/-- A known file of an accepted directory is its owner's alone. -/
theorem owns_of_accepted (h : Accepted u legacy k l) {t : String} {n : Node}
    (ht : t ∈ DEVICE_STORE_STATE_FILES) (hf : k.files legacy (.text t) = some n) : u.Owns n := by
  rw [files_of_dirs h.there] at hf
  obtain ⟨text, htext, hv⟩ := h.entries _ n hf
  cases htext
  have hs : t ≠ SERVICE_SOCKET := by
    rintro rfl
    revert ht
    decide
  rw [validateLegacyStoreEntry, if_neg hs, if_pos ht] at hv
  exact hv

theorem safe_of_idle (h : Idle u legacy canonical k) : Safe u legacy canonical k where
  refused := by
    intro t _ n _ _ k' ha path name
    rw [attempts_of_idle h ha]
  moved := by
    intro k' k'' ha hs
    rw [attempts_of_idle h ha] at hs
    refine Cmd.wp_returns (I := fun _ => True) (F := fun _ _ => True) (R := fun _ k'' =>
      (∀ t ∈ DEVICE_STORE_STATE_FILES, ∀ n, k.files legacy (.text t) = some n →
        k''.files canonical (.text t) = some n) ∧
      ∀ name n, k.files canonical name = some n → k''.files canonical name = some n) hs ?_
    refine wp_of_idle not_mayFail h trivial (fun _ => trivial) ?_
    rintro (rfl | hnone)
    · exact ⟨fun _ _ _ hf => hf, fun _ _ hf => hf⟩
    · refine ⟨?_, fun _ _ hf => hf⟩
      intro t _ n hf
      rw [Disk.files, hnone] at hf
      cases hf
  kept := by
    intro k' ha
    rw [attempts_of_idle h ha]
    exact ⟨fun _ _ hf => .inl hf, fun _ _ hf => hf⟩
  resumed := by
    intro k' ha k''
    rw [attempts_of_idle h ha]
    exact ⟨Iff.rfl, Iff.rfl⟩

theorem safe_of_ready (h : Ready u legacy canonical k l c) : Safe u legacy canonical k where
  refused := by
    intro t ht n hf hbad
    exfalso
    rcases hbad with hbad | hbad
    · exact hbad (owns_of_accepted h.accepted ht hf)
    · rw [files_of_dirs h.there] at hbad
      rw [files_of_dirs h.accepted.there] at hf
      exact hbad (h.apart t ht (by rw [hf]; exact Option.some_ne_none n))
  moved := by
    intro k' k'' ha hs
    have hfiles := files_of_success h (attempts_of_ready h ha) hs
    simp only [hfiles]
    exact files_complete h
  kept := fun k' ha => files_kept h (attempts_of_ready h ha)
  resumed := by
    intro k' ha k''
    obtain ⟨he, hr⟩ := ends_of_ready h k''
    obtain ⟨he', hr'⟩ := ends_of_between h (attempts_of_ready h ha) k''
    exact ⟨he'.trans he.symm, ⟨fun h => absurd h hr', fun h => absurd h hr⟩⟩

theorem safe_of_accepted (hm : u.masked 0o777 = 0o700) (h : Accepted u legacy k l)
    (hne : legacy ≠ canonical) (hc : k.dirs canonical = none) : Safe u legacy canonical k := by
  have hready : Ready u legacy canonical (k.made u canonical 0o700) l
      ((createdDirectory u).withMode 0o700) :=
    h.made hne
  have hlegacy : ∀ name, (k.made u canonical 0o700).files legacy name = k.files legacy name := by
    intro name
    rw [files_of_dirs hready.accepted.there, files_of_dirs h.there]
  have hnone : ∀ name, k.files canonical name = none := by
    intro name
    rw [Disk.files, hc, Option.bind_none]
  have hcases : ∀ k', Attempts u legacy canonical k k' →
      (∃ missing, k' = { k with missing }) ∨
        Between legacy canonical (k.made u canonical 0o700) k' :=
    fun k' => attempts_of_accepted hm h hne hc
  have hearly : ∀ missing, Accepted u legacy { k with missing } l :=
    fun missing => ⟨h.there, h.directory, h.entries⟩
  refine ⟨?_, ?_, ?_, ?_⟩
  · intro t ht n hf hbad
    exfalso
    rcases hbad with hbad | hbad
    · exact hbad (owns_of_accepted h ht hf)
    · exact hbad (hnone _)
  · intro k' k'' ha hs
    have hfiles : ∀ path name, k''.files path name = ((k.made u canonical 0o700).moved legacy
        canonical ((k.made u canonical 0o700).stateFiles legacy)).files path name := by
      intro path name
      rcases hcases k' ha with ⟨missing, rfl⟩ | hb
      · refine Cmd.wp_returns (I := fun _ => True) (F := fun _ _ => True) (R := fun _ k'' =>
          k''.files path name = ((k.made u canonical 0o700).moved legacy canonical
            ((k.made u canonical 0o700).stateFiles legacy)).files path name) hs ?_
        refine wp_of_accepted not_mayFail (hearly missing) hne hc (fun _ => trivial) trivial
          (fun _ _ => trivial) (fun _ _ _ _ => trivial) ?_ ?_
        · rintro - k' rfl
          have hsame : ∀ t, t ∈ Disk.stateFiles { k with missing } legacy ↔
              t ∈ (k.made u canonical 0o700).stateFiles legacy := by
            intro t
            rw [mem_stateFiles, mem_stateFiles, hlegacy]
            rfl
          exact congrArg (fun d : Disk => d.files path name) (Disk.moved_congr hsame)
        · exact files_tidied _ _ _ _
      · exact files_of_success hready hb hs path name
    simp only [hfiles]
    obtain ⟨hmoved, -⟩ := files_complete hready
    refine ⟨?_, ?_⟩
    · intro t ht n hf
      exact hmoved t ht n ((hlegacy _).trans hf)
    · intro name n hf
      rw [hnone] at hf
      cases hf
  · intro k' ha
    refine ⟨?_, ?_⟩
    · intro name n hf
      rcases hcases k' ha with ⟨missing, rfl⟩ | hb
      · exact .inl hf
      · exact (files_kept hready hb).1 name n ((hlegacy name).trans hf)
    · intro name n hf
      rw [hnone] at hf
      cases hf
  · intro k' ha k''
    obtain ⟨he, hr⟩ := ends_of_accepted h hne hc k''
    have hk' : (Ends u legacy canonical k' k'' ↔
        k'' = (k.made u canonical 0o700).settled legacy canonical) ∧
        ¬ Refuses u legacy canonical k' k'' := by
      rcases hcases k' ha with ⟨missing, rfl⟩ | hb
      · exact ends_of_accepted (hearly missing) hne hc k''
      · exact ends_of_between hready hb k''
    exact ⟨hk'.1.trans he.symm, ⟨fun h => absurd h hk'.2, fun h => absurd h hr⟩⟩

/-! ## The directory before its mode is set -/

/-- What a command comes to where nothing fails, it can come to where something may. -/
theorem returns_of_wp {α : Type} {p : Command α} {R : α → Disk → Prop}
    (hw : Cmd.wp (surroundings fun _ => False) (fun _ => True) (fun _ _ => False) p R k) :
    ∃ a k', p.Returns (surroundings (mayFail canonical)) k a k' ∧ R a k' := by
  obtain ⟨a, k', hr, hR⟩ := Cmd.exists_returns (exists_answer _) hw
  refine ⟨a, k', Cmd.Reaches.mono ?_ hr, hR⟩
  intro k q x hx
  cases q with
  | entries path => exact hx
  | fails operation => exact fun hf => (hx hf).elim

theorem passes_createDir (hc : k.dirs canonical = none) (h : k.missing = 0) :
    (createDir u canonical).Passes (surroundings (mayFail canonical)) k
      (k.made u canonical (u.masked 0o777)) := by
  have hk : k.put canonical (some (createdDirectory u)) =
      k.made u canonical (u.masked 0o777) := by
    rw [Disk.made, ← h]
    rfl
  rw [← hk]
  have hfails : Cmd.Returns (surroundings (mayFail canonical))
      (liftM (fails (.createDir canonical)) : Command Bool) k false k :=
    .ask (fun hf => (by cases hf)) .refl
  have hget : Cmd.Returns (surroundings (mayFail canonical)) (Cmd.get : Command Disk) k k k :=
    .look .refl
  have hput : Cmd.Returns (surroundings (mayFail canonical))
      (Cmd.update fun k => k.put canonical (some (createdDirectory u)) : Command Unit) k ()
      (k.put canonical (some (createdDirectory u))) :=
    .step .refl
  rw [createDir]
  refine Cmd.Passes.after hfails ?_
  simp only [Bool.false_eq_true, ↓reduceIte]
  refine Cmd.Passes.after hget ?_
  simp only [hc]
  exact Cmd.Passes.after hput ⟨_, .refl⟩

/-- The directory is there with the mode that the mask leaves it, before its mode is set. -/
theorem attempt_made (h : Accepted u legacy k l) (hne : legacy ≠ canonical)
    (hc : k.dirs canonical = none) :
    Attempt u legacy canonical k (k.made u canonical (u.masked 0o777)) := by
  have hno : ¬ ∃ operation : Operation, False := fun h => h.elim (fun _ hf => hf)
  have hensure : (ensureCanonical u canonical).Passes (surroundings (mayFail canonical)) k
      (k.made u canonical (u.masked 0o777)) := by
    have hmeta : ∃ a k', Cmd.Returns (surroundings (mayFail canonical))
        (liftM (symlinkMetadata canonical) : Command (Option Folder)) k a k' ∧
        (a = none ∧ k' = k) :=
      returns_of_wp (wp_symlinkMetadata trivial (fun h => h) ⟨hc, rfl⟩)
    obtain ⟨a, k', hmeta, rfl, hk'⟩ := hmeta
    rw [hk'] at hmeta
    have hparents : ∃ a k', Cmd.Returns (surroundings (mayFail canonical))
        (createDirAll k.missing) k a k' ∧ k' = { k with missing := 0 } :=
      returns_of_wp (wp_createDirAll (k := k) (fun _ => trivial) (fun h => absurd h hno) rfl)
    obtain ⟨_, k', hparents, hk'⟩ := hparents
    rw [hk'] at hparents
    have hget : Cmd.Returns (surroundings (mayFail canonical)) (Cmd.get : Command Disk) k k k :=
      .look .refl
    refine Cmd.Passes.after hmeta ?_
    refine Cmd.Passes.after hget ?_
    exact Cmd.Passes.after hparents
      ((passes_createDir (k := { k with missing := 0 }) hc rfl).bind _)
  have hmeta : ∃ a k', Cmd.Returns (surroundings (mayFail canonical))
      (liftM (symlinkMetadata legacy) : Command (Option Folder)) k a k' ∧ (a = some l ∧ k' = k) :=
    returns_of_wp (wp_symlinkMetadata trivial (fun h => h) ⟨h.there, rfl⟩)
  obtain ⟨a, k', hmeta, rfl, hk'⟩ := hmeta
  rw [hk'] at hmeta
  have hdirectory : Cmd.Returns (surroundings (mayFail canonical))
      (liftM (lift (u.validateStoreDirectoryMetadata l.metadata)) : Command Unit) k () k := by
    rw [h.directory]
    exact .refl
  have hlist : ∃ names k', Cmd.Returns (surroundings (mayFail canonical))
      (liftM (readDir legacy) : Command (List Name)) k names k' ∧
        (k.Lists legacy names ∧ k' = k) :=
    returns_of_wp (wp_readDir trivial (fun h => h) fun names hn => ⟨hn, rfl⟩)
  obtain ⟨names, k', hlist, hn, hk'⟩ := hlist
  rw [hk'] at hlist
  have hentries : ∃ a k', Cmd.Returns (surroundings (mayFail canonical))
      (liftM (validateLegacyStoreEntries u legacy names) : Command Unit) k a k' ∧ k' = k := by
    refine returns_of_wp (wp_validateLegacyStoreEntries trivial
      (fun name hname => (hn.2 name).mp hname) (fun h => absurd h hno) ?_ fun _ => rfl)
    rintro ⟨name, hname, hx⟩
    obtain ⟨n, hnode⟩ := Option.ne_none_iff_exists'.mp ((hn.2 name).mp hname)
    obtain ⟨text, ht, hv⟩ := h.entries name n ((files_of_dirs h.there name).symm.trans hnode)
    exact absurd ⟨text, n, ht, hnode, hv⟩ hx
  obtain ⟨_, k', hentries, hk'⟩ := hentries
  rw [hk'] at hentries
  rw [Attempt, migrateLegacyDeviceStore, if_neg hne]
  refine Cmd.Passes.after hmeta ?_
  refine Cmd.Passes.after hdirectory ?_
  refine Cmd.Passes.after hlist ?_
  exact Cmd.Passes.after hentries (hensure.bind _)

/-- The mode of the directory is not set again. -/
theorem not_ends_made (hm : u.masked 0o777 ≠ 0o700) (h : Accepted u legacy k l)
    (hne : legacy ≠ canonical) :
    ¬ Ends u legacy canonical (k.made u canonical (u.masked 0o777))
      ((k.made u canonical 0o700).settled legacy canonical) := by
  intro hends
  have hthere : (k.made u canonical (u.masked 0o777)).dirs canonical =
      some ((createdDirectory u).withMode (u.masked 0o777)) := Disk.put_self ..
  obtain ⟨f, hf, hmode⟩ := canonical_between (h.made hne) (.inr rfl)
  have hkept : ∃ f', ((k.made u canonical 0o700).settled legacy canonical).dirs canonical =
      some f' ∧ f'.metadata = ((createdDirectory u).withMode (u.masked 0o777)).metadata := by
    rcases idle_or_ready u legacy canonical (k.made u canonical (u.masked 0o777)) with
      hidle | ⟨l', c, hready⟩ | ⟨-, -, hnone⟩
    · have hsame := Cmd.wp_returns (I := fun _ => True) (F := fun _ _ => True)
        (R := fun _ k' => k' = k.made u canonical (u.masked 0o777)) hends
        (wp_of_idle (fun _ hm => hm) hidle trivial (fun _ => trivial) fun _ => rfl)
      rw [hsame]
      exact ⟨_, hthere, rfl⟩
    · rw [((ends_of_ready hready _).1).mp hends]
      have hc := hready.there
      rw [hthere] at hc
      cases hc
      exact canonical_between hready (.inr rfl)
    · rw [hthere] at hnone
      cases hnone
  obtain ⟨f', hf', hmode'⟩ := hkept
  rw [hf] at hf'
  cases hf'
  rw [hmode] at hmode'
  exact hm (congrArg Metadata.mode hmode').symm

/-- Nothing is lost or moved in vain, and a migration is taken up where it was left, exactly where
the canonical directory does not have to be made or the mask leaves it to its owner alone. -/
theorem migration_safe_iff (u : User) (legacy canonical : String) (k : Disk) :
    Safe u legacy canonical k ↔ Prepared u legacy canonical k := by
  constructor
  · intro h
    by_contra hn
    simp only [Prepared, not_or, not_forall, not_not] at hn
    obtain ⟨hne, ⟨l, ha⟩, hc, hm⟩ := hn
    have hc := Option.not_isSome_iff_eq_none.mp hc
    have hmade := attempt_made ha hne hc
    have hends := ((ends_of_accepted ha hne hc _).1).mpr rfl
    exact not_ends_made hm ha hne
      ((h.resumed _ (.single hmade) _).1.mpr hends)
  · intro h
    rcases idle_or_ready u legacy canonical k with hidle | ⟨l, c, hready⟩ | ⟨hne, ⟨l, ha⟩, hc⟩
    · exact safe_of_idle hidle
    · exact safe_of_ready hready
    · rcases h with h | h | h | hm
      · exact absurd h hne
      · exact absurd ha (h l)
      · rw [hc] at h
        cases h
      · exact safe_of_accepted hm ha hne hc

/-- A directory that others can enter is refused, although the migration has made it. -/
theorem idle_made (hm : u.masked 0o777 &&& 0o077 ≠ 0) :
    Idle u legacy canonical (k.made u canonical (u.masked 0o777)) := by
  refine .inr (.inr ⟨_, Disk.put_self .., .inl ?_⟩)
  rw [User.validateStoreDirectoryMetadata]
  simp only [Folder.withMode, createdDirectory]
  simp [hm]

end

/-! ## One store -/

def sampleUser : User := ⟨1000, 0o022⟩

def sampleKeyFile : Node := ⟨⟨.regular, 1000, 1, 0o600⟩, utf8 "EGBKEY2"⟩

theorem finite_single (name : Name) (n : Node) :
    FiniteDirectory fun other => if other = name then some n else none := by
  refine (Set.finite_singleton name).subset ?_
  intro other ho
  by_contra hne
  exact ho (if_neg hne)

def sampleFolder : Folder :=
  ⟨⟨.directory, 1000, 2, 0o700⟩, _,
    finite_single (.text "ego-browser-device-key.bin") sampleKeyFile⟩

/-- A legacy store with a key, and no canonical one yet. -/
def sampleDisk : Disk where
  dirs := fun path => if path = "/legacy" then some sampleFolder else none
  missing := 0

theorem accepted_sample : Accepted sampleUser "/legacy" sampleDisk sampleFolder := by
  refine ⟨by simp [sampleDisk], by decide, ?_⟩
  intro name n hn
  simp only [sampleFolder] at hn
  split at hn
  · rename_i hname
    cases hn
    exact ⟨_, hname, by decide⟩
  · cases hn

/-- A migration that is interrupted between the directory's creation and the setting of its mode
cannot be taken up again. -/
theorem migration_stuck : ∃ k', Attempts sampleUser "/legacy" "/canonical" sampleDisk k' ∧
    (∃ k'', Ends sampleUser "/legacy" "/canonical" sampleDisk k'') ∧
    ∀ k'', ¬ Ends sampleUser "/legacy" "/canonical" k' k'' := by
  have ha := accepted_sample
  have hne : "/legacy" ≠ "/canonical" := by decide
  have hc : sampleDisk.dirs "/canonical" = none := by simp [sampleDisk]
  refine ⟨_, .single (attempt_made ha hne hc), ⟨_, ((ends_of_accepted ha hne hc _).1).mpr rfl⟩, ?_⟩
  intro k'' hends
  refine Cmd.wp_returns (I := fun _ => True) (F := fun _ _ => True) (R := fun _ _ => False) hends
    (wp_of_idle (fun _ hm => hm) (idle_made (by decide)) trivial (fun _ => trivial) ?_)
  rintro (h | h)
  · exact hne h
  · rw [Disk.made, Disk.put_of_ne hne] at h
    cases h

end Migration
end Device
end EgoBridge
