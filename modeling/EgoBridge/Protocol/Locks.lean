import EgoBridge.Lib.Run
import EgoBridge.Protocol.Scheduler

/-!
# Protocol.Locks

A scheduler with the guards that have not been dropped, over any run of acquires and drops.

* `Sound`           — what the scheduler's state says about the live guards, and that no two of
  them cover one task space.
* `locks_sound`     — every reachable state is sound, and a scheduler without guards is a new one.
* `conflict_iff`    — a conflict is an overlap of the scopes, or two tab keys with the same text.
* `conflict_exact`  — so a conflict is exact unless the tab keys of two task spaces collide.
-/

namespace EgoBridge
namespace Protocol

open Run

/-- A live guard and the scope it was taken for. -/
structure Held where
  scope : RequestScope
  guard : PermitGuard
  deriving DecidableEq

structure Locks where
  scheduler : Scheduler
  held : List Held
  deriving DecidableEq

inductive LockAct where
  | acquire (generation : UInt64) (requestId : String) (mode : Option ConcurrencyMode)
      (taskSpace tab : Option String)
  | drop (h : Held)

namespace Locks

def acquire (s : Locks) (generation : UInt64) (requestId : String) (scope : RequestScope) : Locks :=
  match s.scheduler.tryAcquire generation requestId scope with
  | .ok (guard, scheduler) => ⟨scheduler, ⟨scope, guard⟩ :: s.held⟩
  | .error _ => s

inductive Step : Locks → LockAct → Locks → Prop where
  | acquire {s : Locks} {generation : UInt64} {requestId : String} {mode : Option ConcurrencyMode}
      {taskSpace tab : Option String} :
      Step s (.acquire generation requestId mode taskSpace tab)
        (s.acquire generation requestId (.normalized mode taskSpace tab))
  | drop {s : Scheduler} {l r : List Held} {h : Held} :
      Step ⟨s, l ++ h :: r⟩ (.drop h) ⟨s.release h.guard, l ++ r⟩

/-- The runs of a scheduler made for `maximum`. -/
def system (maximum : Nat) : System LockAct Locks where
  init := fun s => Scheduler.new maximum = .ok s.scheduler ∧ s.held = []
  step := Step

def heldKeys (held : List Held) : List String := held.flatMap fun h => h.guard.keys

end Locks

/-- A whole-binding scope covers every task space. -/
def RequestScope.Covers (scope : RequestScope) (taskSpace : String) : Prop :=
  scope.mode = .binding ∨ scope.taskSpace = some taskSpace

theorem insertAll_perm {keys : List String} :
    ∀ {held : List String}, (keys ++ held).Nodup →
      (keys.foldl (fun held key => held.insert key) held).Perm (keys ++ held) := by
  induction keys with
  | nil => exact fun _ => .refl _
  | cons key keys ih =>
    intro held h
    obtain ⟨hkey, hrest⟩ := List.nodup_cons.mp h
    have hp : (keys ++ key :: held).Perm (key :: (keys ++ held)) := List.perm_middle
    rw [List.foldl_cons, List.insert_of_not_mem fun hk => hkey (List.mem_append_right _ hk)]
    exact (ih (hp.nodup_iff.mpr h)).trans hp

theorem eraseAll_perm {keys : List String} :
    ∀ {held rest : List String}, held.Perm (keys ++ rest) →
      (keys.reverse.foldl (fun held key => held.erase key) held).Perm rest := by
  suffices h : ∀ {ks held rest : List String}, held.Perm (ks ++ rest) →
      (ks.foldl (fun held key => held.erase key) held).Perm rest by
    intro held rest hp
    exact h (hp.trans ((List.reverse_perm keys).symm.append_right _))
  intro ks
  induction ks with
  | nil => exact fun h => h
  | cons key ks ih =>
    intro held rest h
    have he := h.erase key
    rw [List.cons_append, List.erase_cons_head] at he
    exact ih he

theorem lockKeys_nodup (scope : RequestScope) : (lockKeys scope).Nodup := by
  unfold lockKeys
  split
  · simp
  · simp
  · simp only [List.nodup_cons, List.mem_singleton, List.not_mem_nil, not_false_eq_true,
      List.nodup_nil, and_true]
    intro h
    have := congrArg String.toList h
    simp [String.toList_append] at this

theorem tryAcquire_ok {s s' : Scheduler} {generation : UInt64} {requestId : String}
    {scope : RequestScope} {guard : PermitGuard}
    (h : s.tryAcquire generation requestId scope = .ok (guard, s')) :
    s.active < s.maximum ∧ (scope.mode = .binding → s.active = 0) ∧
      (scope.mode ≠ .binding → s.bindingHeld = false ∧ ∀ key ∈ lockKeys scope, key ∉ s.keys) ∧
      guard = ⟨lockKeys scope, scope.mode = .binding, generation, requestId⟩ ∧
      s' = { s with
        active := s.active + 1
        bindingHeld := s.bindingHeld || scope.mode = .binding
        keys := (lockKeys scope).foldl (fun keys key => keys.insert key) s.keys } := by
  unfold Scheduler.tryAcquire at h
  split at h
  · cases h
  rename_i hmax
  split at h
  · cases h
  rename_i hbinding
  split at h
  · cases h
  rename_i hkeys
  cases h
  refine ⟨Nat.not_le.mp hmax, ?_, ?_, rfl, rfl⟩
  · intro hb
    simp only [hb, true_and, not_or, not_not] at hbinding
    exact hbinding.1
  · intro hb
    simp only [ne_eq, hb, not_false_eq_true, true_and, not_or, List.any_eq_true, decide_eq_true_eq,
      not_exists, not_and] at hkeys
    exact ⟨by simpa using hkeys.1, hkeys.2⟩

theorem taskSpaceKey_mem {scope : RequestScope} {taskSpace : String} (hm : scope.mode ≠ .binding)
    (ht : scope.taskSpace = some taskSpace) : "task-space:" ++ taskSpace ∈ lockKeys scope := by
  unfold lockKeys
  split
  · exact absurd ‹_› hm
  · simp [ht]
  · simp [ht]

theorem RequestScope.Normal.covers {scope : RequestScope} (h : scope.Normal) :
    ∃ taskSpace, scope.Covers taskSpace := by
  by_cases hb : scope.mode = .binding
  · exact ⟨"", .inl hb⟩
  · obtain ⟨taskSpace, ht, -⟩ := h.taskSpace hb
    exact ⟨taskSpace, .inr ht⟩

namespace Locks

structure Sound (s : Locks) : Prop where
  count : s.scheduler.active = s.held.length
  bounded : s.scheduler.active ≤ s.scheduler.maximum
  disjoint : (heldKeys s.held).Nodup
  keys : s.scheduler.keys.Perm (heldKeys s.held)
  binding : s.scheduler.bindingHeld = true ↔ ∃ h, s.held = [h] ∧ h.guard.binding = true
  exclusive : s.held.Pairwise fun a b => ∀ t, ¬ (a.scope.Covers t ∧ b.scope.Covers t)

/-- A guard as its own acquire made it. -/
structure Fits (h : Held) : Prop where
  keys : h.guard.keys = lockKeys h.scope
  binding : h.guard.binding = true ↔ h.scope.mode = .binding
  normal : h.scope.Normal

structure Inv (maximum : Nat) (s : Locks) : Prop extends Sound s where
  fits : ∀ h ∈ s.held, Fits h
  new : Scheduler.new maximum = .ok ⟨s.scheduler.maximum, 0, false, []⟩

/-- A whole-binding guard is alone. -/
theorem alone {held : List Held} (hf : ∀ h ∈ held, Fits h)
    (hx : held.Pairwise fun a b => ∀ t, ¬ (a.scope.Covers t ∧ b.scope.Covers t)) {h : Held}
    (hm : h ∈ held) (hb : h.guard.binding = true) : held = [h] := by
  obtain ⟨l, r, rfl⟩ := List.append_of_mem hm
  have hbind := (hf h hm).binding.mp hb
  obtain ⟨-, hr, hl⟩ := List.pairwise_append.mp hx
  have hl0 : l = [] := by
    refine List.eq_nil_iff_forall_not_mem.mpr fun a ha => ?_
    obtain ⟨t, ht⟩ := (hf a (List.mem_append_left _ ha)).normal.covers
    exact hl a ha h List.mem_cons_self t ⟨ht, .inl hbind⟩
  have hr0 : r = [] := by
    refine List.eq_nil_iff_forall_not_mem.mpr fun a ha => ?_
    obtain ⟨t, ht⟩ := (hf a (List.mem_append_right _ (List.mem_cons_of_mem _ ha))).normal.covers
    exact (List.pairwise_cons.mp hr).1 a ha t ⟨.inl hbind, ht⟩
  rw [hl0, hr0, List.nil_append]

theorem Inv.alone_iff {maximum : Nat} {s : Locks} (hi : Inv maximum s) :
    s.scheduler.bindingHeld = true ↔ ∃ h ∈ s.held, h.guard.binding = true := by
  rw [hi.binding]
  constructor
  · rintro ⟨h, hh, hb⟩
    exact ⟨h, hh ▸ List.mem_cons_self, hb⟩
  · rintro ⟨h, hm, hb⟩
    exact ⟨h, alone hi.fits hi.exclusive hm hb, hb⟩

theorem heldKeys_cons (h : Held) (held : List Held) :
    heldKeys (h :: held) = h.guard.keys ++ heldKeys held := List.flatMap_cons

theorem mem_heldKeys {held : List Held} {h : Held} {key : String} (hm : h ∈ held)
    (hk : key ∈ h.guard.keys) : key ∈ heldKeys held := List.mem_flatMap.mpr ⟨h, hm, hk⟩

theorem Inv.acquired {maximum : Nat} {s : Locks} (hi : Inv maximum s) {generation : UInt64}
    {requestId : String} {scope : RequestScope} (hn : scope.Normal) {guard : PermitGuard}
    {scheduler : Scheduler}
    (h : s.scheduler.tryAcquire generation requestId scope = .ok (guard, scheduler)) :
    Inv maximum ⟨scheduler, ⟨scope, guard⟩ :: s.held⟩ := by
  obtain ⟨hmax, hbind, hfree, rfl, rfl⟩ := tryAcquire_ok h
  have hnil : scope.mode = .binding → s.held = [] := fun hb =>
    List.length_eq_zero_iff.mp (hi.count.symm.trans (hbind hb))
  have hdisjoint : ∀ key ∈ lockKeys scope, key ∉ heldKeys s.held := by
    by_cases hb : scope.mode = .binding
    · rw [hnil hb]
      exact fun _ _ => List.not_mem_nil
    · exact fun key hk hm => (hfree hb).2 key hk (hi.keys.mem_iff.mpr hm)
  have hnodup : (lockKeys scope ++ heldKeys s.held).Nodup :=
    List.nodup_append.mpr ⟨lockKeys_nodup scope, hi.disjoint,
      fun key hk _ hm he => hdisjoint key hk (he ▸ hm)⟩
  refine ⟨⟨?_, hmax, hnodup, ?_, ?_, ?_⟩, ?_, hi.new⟩
  · rw [List.length_cons, ← hi.count]
  · have hp : (lockKeys scope ++ s.scheduler.keys).Perm (lockKeys scope ++ heldKeys s.held) :=
      hi.keys.append_left _
    exact (insertAll_perm (hp.nodup_iff.mpr hnodup)).trans hp
  · by_cases hb : scope.mode = .binding
    · simp [hb, hnil hb]
    · simp [hb, (hfree hb).1]
  · refine List.pairwise_cons.mpr ⟨?_, hi.exclusive⟩
    intro b hb t ⟨hnew, hold⟩
    have hmode : scope.mode ≠ .binding := fun h => by
      rw [hnil h] at hb
      cases hb
    have ht := hnew.resolve_left hmode
    have hfit := hi.fits b hb
    by_cases hbb : b.scope.mode = .binding
    · have := hi.alone_iff.mpr ⟨b, hb, hfit.binding.mpr hbb⟩
      rw [(hfree hmode).1] at this
      cases this
    · have hk := taskSpaceKey_mem hbb (hold.resolve_left hbb)
      rw [← hfit.keys] at hk
      exact hdisjoint _ (taskSpaceKey_mem hmode ht) (mem_heldKeys hb hk)
  · intro b hb
    cases List.mem_cons.mp hb with
    | inl h => exact h ▸ ⟨rfl, by simp, hn⟩
    | inr h => exact hi.fits b h

theorem Inv.dropped {maximum : Nat} {s : Scheduler} {l r : List Held} {h : Held}
    (hi : Inv maximum ⟨s, l ++ h :: r⟩) : Inv maximum ⟨s.release h.guard, l ++ r⟩ := by
  have hsub : List.Sublist (l ++ r) (l ++ h :: r) := (List.sublist_cons_self h r).append_left l
  have hperm : (heldKeys (l ++ h :: r)).Perm (h.guard.keys ++ heldKeys (l ++ r)) := by
    rw [← heldKeys_cons]
    exact List.perm_middle.flatMap_right _
  have hcount : s.active = (l ++ r).length + 1 := by
    have := hi.count
    simp only [List.length_append, List.length_cons] at this ⊢
    omega
  have hfits : ∀ b ∈ l ++ r, Fits b := fun b hb => hi.fits b (hsub.subset hb)
  have hexcl := hi.exclusive.sublist hsub
  refine ⟨⟨?_, ?_, ?_, ?_, ?_, hexcl⟩, hfits, hi.new⟩
  · exact (congrArg (· - 1) hcount).trans (Nat.add_sub_cancel _ _)
  · exact Nat.le_trans (Nat.sub_le _ _) hi.bounded
  · exact (List.nodup_append.mp (hperm.nodup_iff.mp hi.disjoint)).2.1
  · exact eraseAll_perm (hi.keys.trans hperm)
  · have hone : ∀ b ∈ l ++ h :: r, b.guard.binding = true → b = h ∧ l ++ r = [] := by
      intro b hb hbb
      cases List.append_eq_singleton_iff.mp (alone hi.fits hi.exclusive hb hbb) with
      | inl e =>
        cases e.2
        exact ⟨rfl, by rw [e.1, List.nil_append]⟩
      | inr e => cases e.2
    have hrest : ¬ ∃ b, l ++ r = [b] ∧ b.guard.binding = true := by
      rintro ⟨b, hb, hbb⟩
      rw [(hone b (hsub.subset (hb ▸ List.mem_cons_self)) hbb).2] at hb
      cases hb
    refine iff_of_false ?_ hrest
    simp only [Scheduler.release]
    split
    · nofun
    · intro hheld
      obtain ⟨b, hb, hbb⟩ := hi.alone_iff.mp hheld
      exact absurd ((hone b hb hbb).1 ▸ hbb) ‹_›

theorem Inv.reachable {maximum : Nat} {s : Locks} (h : (system maximum).Reachable s) :
    Inv maximum s := by
  refine System.invariant ?_ ?_ h
  · rintro ⟨s, _⟩ ⟨hnew, rfl⟩
    have hs : s = ⟨maximum, 0, false, []⟩ := by
      unfold Scheduler.new at hnew
      split at hnew
      · cases hnew
      · exact (Except.ok.inj hnew).symm
    subst hs
    exact ⟨⟨rfl, Nat.zero_le _, .nil, .refl _, by simp, .nil⟩, nofun, hnew⟩
  · intro s a s' hi hs
    cases hs with
    | acquire =>
      unfold acquire
      split
      · exact hi.acquired (RequestScope.normalized_normal _ _ _) ‹_›
      · exact hi
    | drop => exact hi.dropped

/-- **Representation and mutual exclusion.** Every reachable state is sound, a refused acquire
leaves the state as it is, and without guards the scheduler is as it was made. -/
theorem locks_sound {maximum : Nat} {s : Locks} (h : (system maximum).Reachable s) :
    s.Sound ∧
    (∀ generation requestId scope error,
      s.scheduler.tryAcquire generation requestId scope = .error error →
        s.acquire generation requestId scope = s) ∧
    (s.held = [] → Scheduler.new maximum = .ok s.scheduler) := by
  have hi := Inv.reachable h
  refine ⟨hi.toSound, ?_, ?_⟩
  · intro generation requestId scope error he
    rw [acquire, he]
  · intro hnil
    have hactive := hi.count
    have hkeys := hi.keys
    have hbinding : s.scheduler.bindingHeld = false := by
      rw [Bool.eq_false_iff]
      intro hb
      obtain ⟨h, hh, -⟩ := hi.binding.mp hb
      rw [hnil] at hh
      cases hh
    rw [hnil] at hactive hkeys
    have heta : s.scheduler = ⟨s.scheduler.maximum, s.scheduler.active, s.scheduler.bindingHeld,
        s.scheduler.keys⟩ := rfl
    rw [hi.new, heta, hactive, hbinding, hkeys.eq_nil, List.length_nil]


/-- A guard for the tab `c` of the task space `a:b`. -/
def colonLocks : Locks where
  scheduler := ⟨4, 1, false, ["tab:a:b:c", "task-space:a:b"]⟩
  held := [⟨⟨.taskSpaceTab, some "a:b", some "c"⟩,
    ⟨["task-space:a:b", "tab:a:b:c"], false, 1, "one"⟩⟩]

theorem colonLocks_reachable : (system 4).Reachable colonLocks := by
  have h0 : (system 4).Reachable ⟨⟨4, 0, false, []⟩, []⟩ := .start ⟨rfl, rfl⟩
  have h1 := h0.next (.acquire 1 "one" (some .taskSpaceTab) (some "a:b") (some "c")) .acquire
  exact h1

theorem locks_sound_colon :
    colonLocks.scheduler.active = 1 ∧ (heldKeys colonLocks.held).Nodup :=
  ⟨(locks_sound colonLocks_reachable).1.count, (locks_sound colonLocks_reachable).1.disjoint⟩

end Locks

/-- The task space and the tab as the tab's key has them, one after the other. -/
def RequestScope.joined (scope : RequestScope) : String :=
  scope.taskSpace.getD "" ++ ":" ++ scope.tab.getD ""

theorem mem_lockKeys {scope : RequestScope} (hm : scope.mode ≠ .binding) {key : String} :
    key ∈ lockKeys scope ↔ key = "task-space:" ++ scope.taskSpace.getD "" ∨
      (scope.mode = .taskSpaceTab ∧ key = "tab:" ++ scope.joined) := by
  unfold lockKeys RequestScope.joined
  cases hmode : scope.mode with
  | binding => exact absurd hmode hm
  | taskSpace => simp
  | taskSpaceTab => simp [String.append_assoc]

theorem taskSpaceKey_ne_tabKey (a b : String) : "task-space:" ++ a ≠ "tab:" ++ b := by
  intro h
  have := congrArg String.toList h
  simp [String.toList_append] at this

/-- Two scopes share a key where their task spaces or their joined texts are the same. -/
theorem sharedKey_iff {a b : RequestScope} (ha : a.Normal) (hb : b.Normal) (hma : a.mode ≠ .binding)
    (hmb : b.mode ≠ .binding) :
    (∃ key ∈ lockKeys a, key ∈ lockKeys b) ↔
      (∃ t, b.taskSpace = some t ∧ a.taskSpace = some t) ∨
      (a.mode = .taskSpaceTab ∧ b.mode = .taskSpaceTab ∧ b.joined = a.joined) := by
  obtain ⟨s, hs, -⟩ := ha.taskSpace hma
  obtain ⟨t, ht, -⟩ := hb.taskSpace hmb
  simp only [mem_lockKeys hma, mem_lockKeys hmb, hs, ht, Option.getD_some, Option.some.injEq]
  constructor
  · rintro ⟨key, rfl | ⟨hta, rfl⟩, hk | ⟨htb, hk⟩⟩
    · exact .inl ⟨t, rfl, (String.append_right_inj _).mp hk⟩
    · exact absurd hk (taskSpaceKey_ne_tabKey _ _)
    · exact absurd hk.symm (taskSpaceKey_ne_tabKey _ _)
    · exact .inr ⟨hta, htb, ((String.append_right_inj _).mp hk).symm⟩
  · rintro (⟨_, rfl, rfl⟩ | ⟨hta, htb, hj⟩)
    · exact ⟨_, .inl rfl, .inl rfl⟩
    · exact ⟨_, .inr ⟨hta, rfl⟩, .inr ⟨htb, hj ▸ rfl⟩⟩

namespace Locks

/-- The overlaps a conflict stands for. -/
def Conflicts (held : List Held) (scope : RequestScope) : Prop :=
  (∃ h ∈ held, h.guard.binding = true) ∨ (scope.mode = .binding ∧ held ≠ []) ∨
    ∃ h ∈ held, ∃ t, h.scope.taskSpace = some t ∧ scope.taskSpace = some t

/-- A live tab guard of another task space has the same joined text. -/
def Collides (held : List Held) (scope : RequestScope) : Prop :=
  scope.mode = .taskSpaceTab ∧ ∃ h ∈ held, h.scope.mode = .taskSpaceTab ∧
    h.scope.taskSpace ≠ scope.taskSpace ∧ h.scope.joined = scope.joined

theorem tryAcquire_conflict {s : Scheduler} (hmax : s.active < s.maximum) {generation : UInt64}
    {requestId : String} {scope : RequestScope} :
    s.tryAcquire generation requestId scope = .error .conflict ↔
      (scope.mode = .binding ∧ (s.active ≠ 0 ∨ s.bindingHeld = true)) ∨
      (scope.mode ≠ .binding ∧ (s.bindingHeld = true ∨ ∃ key ∈ lockKeys scope, key ∈ s.keys)) := by
  rw [Scheduler.tryAcquire, if_neg (Nat.not_le.mpr hmax)]
  by_cases hb : scope.mode = .binding
  · simp only [hb, true_and, ne_eq, not_true_eq_false, false_and, or_false, if_false]
    split
    · exact iff_of_true rfl ‹_›
    · exact iff_of_false nofun ‹_›
  · simp only [hb, false_and, ne_eq, not_false_eq_true, true_and, false_or, if_false,
      List.any_eq_true, decide_eq_true_eq]
    split
    · exact iff_of_true rfl ‹_›
    · exact iff_of_false nofun ‹_›

theorem conflict_iff {maximum : Nat} {s : Locks} (hi : Inv maximum s)
    (hmax : s.scheduler.active < s.scheduler.maximum) (generation : UInt64) (requestId : String)
    {scope : RequestScope} (hn : scope.Normal) :
    s.scheduler.tryAcquire generation requestId scope = .error .conflict ↔
      Conflicts s.held scope ∨ Collides s.held scope := by
  rw [tryAcquire_conflict hmax, hi.alone_iff, hi.count]
  by_cases hb : scope.mode = .binding
  · have hnone : scope.taskSpace = none := by rw [hn.binding hb]; rfl
    simp only [hb, hnone, Conflicts, Collides, true_and, ne_eq, not_true_eq_false, false_and,
      or_false, reduceCtorEq, and_false, exists_false, List.length_eq_zero_iff]
    grind
  · have hkeys : (∃ key ∈ lockKeys scope, key ∈ s.scheduler.keys) ↔
        ∃ h ∈ s.held, ∃ key ∈ lockKeys scope, key ∈ lockKeys h.scope := by
      simp only [hi.keys.mem_iff, heldKeys, List.mem_flatMap]
      constructor
      · rintro ⟨key, hk, h, hh, hkh⟩
        exact ⟨h, hh, key, hk, (hi.fits h hh).keys ▸ hkh⟩
      · rintro ⟨h, hh, key, hk, hkh⟩
        exact ⟨key, hk, h, hh, (hi.fits h hh).keys ▸ hkh⟩
    rw [hkeys]
    simp only [hb, false_and, false_or, ne_eq, not_false_eq_true, true_and]
    constructor
    · rintro (hw | ⟨h, hh, hshare⟩)
      · exact .inl (.inl hw)
      by_cases hbh : h.scope.mode = .binding
      · exact .inl (.inl ⟨h, hh, (hi.fits h hh).binding.mpr hbh⟩)
      cases (sharedKey_iff hn (hi.fits h hh).normal hb hbh).mp hshare with
      | inl hs => exact .inl (.inr (.inr ⟨h, hh, hs⟩))
      | inr hj =>
        by_cases he : h.scope.taskSpace = scope.taskSpace
        · obtain ⟨t, ht, -⟩ := hn.taskSpace hb
          exact .inl (.inr (.inr ⟨h, hh, t, he.trans ht, ht⟩))
        · exact .inr ⟨hj.1, h, hh, hj.2.1, he, hj.2.2⟩
    · rintro ((hw | ⟨hb', -⟩ | ⟨h, hh, t, hth, ht⟩) | ⟨hm, h, hh, hmh, -, hj⟩)
      · exact .inl hw
      · exact absurd hb' hb
      · have hbh : h.scope.mode ≠ .binding := fun hbh => by
          rw [(hi.fits h hh).normal.binding hbh] at hth
          cases hth
        exact .inr ⟨h, hh, (sharedKey_iff hn (hi.fits h hh).normal hb hbh).mpr (.inl ⟨t, hth, ht⟩)⟩
      · have hbh : h.scope.mode ≠ .binding := by rw [hmh]; nofun
        exact .inr ⟨h, hh, (sharedKey_iff hn (hi.fits h hh).normal hb hbh).mpr (.inr ⟨hm, hmh, hj⟩)⟩

/-- **Conflicts are exact** below the limit, but for colliding tab keys. -/
theorem conflict_exact {maximum : Nat} {s : Locks} (h : (system maximum).Reachable s)
    (hmax : s.scheduler.active < s.scheduler.maximum) (generation : UInt64) (requestId : String)
    (mode : Option ConcurrencyMode) (taskSpace tab : Option String) :
    (s.scheduler.tryAcquire generation requestId (.normalized mode taskSpace tab) =
        .error .conflict ↔ Conflicts s.held (.normalized mode taskSpace tab)) ↔
      (Conflicts s.held (.normalized mode taskSpace tab) ∨
        ¬ Collides s.held (.normalized mode taskSpace tab)) := by
  rw [conflict_iff (Inv.reachable h) hmax _ _ (RequestScope.normalized_normal _ _ _)]
  by_cases hc : Conflicts s.held (.normalized mode taskSpace tab)
  · simp [hc]
  · simp [hc]

theorem conflict_exact_apart :
    colonLocks.scheduler.tryAcquire 1 "two" (.normalized (some .taskSpaceTab) (some "z") (some "c")) =
        .error .conflict ↔
      Conflicts colonLocks.held (.normalized (some .taskSpaceTab) (some "z") (some "c")) := by
  refine (conflict_exact colonLocks_reachable (by decide) 1 "two" (some .taskSpaceTab) (some "z")
    (some "c")).mpr (.inr ?_)
  rintro ⟨-, h, hh, -, -, hj⟩
  cases List.mem_singleton.mp hh
  exact absurd hj (by decide)

/-- The task spaces `a:b` and `a` are refused together. -/
theorem separator_conflict : (system 4).Reachable colonLocks ∧
    colonLocks.scheduler.active < colonLocks.scheduler.maximum ∧
    RequestScope.normalized (some .taskSpaceTab) (some "a") (some "b:c") =
      ⟨.taskSpaceTab, some "a", some "b:c"⟩ ∧
    colonLocks.scheduler.tryAcquire 1 "two" ⟨.taskSpaceTab, some "a", some "b:c"⟩ =
      .error .conflict ∧
    ¬ Conflicts colonLocks.held ⟨.taskSpaceTab, some "a", some "b:c"⟩ := by
  refine ⟨colonLocks_reachable, by decide, by decide, by decide, ?_⟩
  simp [Conflicts, colonLocks]

end Locks
end Protocol
end EgoBridge
