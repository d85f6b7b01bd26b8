import EgoBridge.Protocol.Types
import Mathlib.Data.List.DropRight

/-!
# Protocol.Scheduler

The immediate-fail scheduler: normalized scopes, the lock keys a scope takes, and the guard a
request holds while it runs. The mutex around the inner state makes each call one step.

* `normalized_normal`     — what a scope made by `normalized` looks like.
* `normalized_idempotent` — normalizing it again changes nothing.
-/

namespace EgoBridge
namespace Protocol

/-- Normalized collaboration-lock declaration. -/
structure RequestScope where
  mode : ConcurrencyMode
  taskSpace : Option String
  tab : Option String
  deriving DecidableEq

/-- `char::is_whitespace`. -/
def isWhitespace (c : Char) : Bool :=
  let n := c.toNat
  (9 ≤ n && n ≤ 13) || n = 0x20 || n = 0x85 || n = 0xa0 || n = 0x1680 ||
    (0x2000 ≤ n && n ≤ 0x200a) || n = 0x2028 || n = 0x2029 || n = 0x202f || n = 0x205f ||
    n = 0x3000

/-- `str::trim`. -/
def trim (value : String) : String :=
  String.ofList (((value.toList.dropWhile isWhitespace).reverse.dropWhile isWhitespace).reverse)

theorem dropWhile_rdropWhile (p : Char → Bool) (l : List Char) :
    ((l.dropWhile p).rdropWhile p).dropWhile p = (l.dropWhile p).rdropWhile p := by
  rw [List.dropWhile_eq_self_iff]
  intro hl
  have hp := List.rdropWhile_prefix p (l.dropWhile p)
  have hd := List.dropWhile_idempotent p l
  rw [List.dropWhile_eq_self_iff] at hd
  have h0 := hd (Nat.lt_of_lt_of_le hl hp.length_le)
  rwa [← hp.getElem hl] at h0

theorem trim_trim (value : String) : trim (trim value) = trim value := by
  rw [trim, trim, String.toList_ofList]
  exact congrArg String.ofList ((congrArg (List.rdropWhile isWhitespace)
    (dropWhile_rdropWhile isWhitespace value.toList)).trans
      (List.rdropWhile_idempotent isWhitespace _))

def validScope (value : String) : Bool :=
  (utf8 value).length ≤ 256 && (utf8 value).all isTextByte

namespace RequestScope

def bindingLock : RequestScope := ⟨.binding, none, none⟩

/-- Normalize missing, wildcard, or malformed scopes to a binding lock. -/
def normalized (mode : Option ConcurrencyMode) (taskSpace tab : Option String) : RequestScope :=
  let mode := mode.getD .binding
  let taskSpace := (taskSpace.map trim).filter (fun value => !value.isEmpty)
  let tab := (tab.map trim).filter (fun value => !value.isEmpty)
  if mode = .binding ∨ taskSpace.isNone ∨ taskSpace.any (fun value => !validScope value) ∨
      taskSpace.any (containsText "*") ∨
      (mode = .taskSpaceTab ∧
        (tab.isNone ∨ tab.any (fun value => containsText "*" value || !validScope value))) then
    bindingLock
  else ⟨mode, taskSpace, tab⟩

/-- The scopes `normalized` makes. -/
structure Normal (scope : RequestScope) : Prop where
  binding : scope.mode = .binding → scope = bindingLock
  taskSpace : scope.mode ≠ .binding → ∃ value, scope.taskSpace = some value ∧ trim value = value ∧
    value ≠ "" ∧ validScope value ∧ ¬ containsText "*" value
  tab : ∀ value, scope.tab = some value → trim value = value ∧ value ≠ ""
  tabbed : scope.mode = .taskSpaceTab → ∃ value, scope.tab = some value ∧ validScope value ∧
    ¬ containsText "*" value

theorem bindingLock_normal : bindingLock.Normal where
  binding := fun _ => rfl
  taskSpace := fun h => absurd rfl h
  tab := nofun
  tabbed := nofun

theorem trimmed {given : Option String} {value : String}
    (h : (given.map trim).filter (fun value => !value.isEmpty) = some value) :
    trim value = value ∧ value ≠ "" := by
  obtain ⟨h1, h2⟩ := Option.filter_eq_some_iff.mp h
  obtain ⟨raw, -, rfl⟩ := Option.map_eq_some_iff.mp h1
  refine ⟨trim_trim raw, ?_⟩
  intro he
  rw [he] at h2
  cases h2

theorem normalized_normal (mode : Option ConcurrencyMode) (taskSpace tab : Option String) :
    (normalized mode taskSpace tab).Normal := by
  rw [normalized]
  split
  · exact bindingLock_normal
  rename_i h
  simp only [not_or, not_and] at h
  obtain ⟨hmode, hsome, hvalid, hstar, htab⟩ := h
  refine ⟨fun hb => absurd hb hmode, fun _ => ?_, fun value hv => trimmed hv, fun hb => ?_⟩
  · obtain ⟨value, hv⟩ := Option.ne_none_iff_exists'.mp (mt Option.isNone_iff_eq_none.mpr hsome)
    rw [hv] at hvalid hstar
    exact ⟨value, hv, (trimmed hv).1, (trimmed hv).2, by simpa using hvalid, by simpa using hstar⟩
  · obtain ⟨hsome, hvalid⟩ := htab hb
    obtain ⟨value, hv⟩ := Option.ne_none_iff_exists'.mp (mt Option.isNone_iff_eq_none.mpr hsome)
    rw [hv] at hvalid
    have h : containsText "*" value = false ∧ validScope value = true := by simpa using hvalid
    exact ⟨value, hv, h.2, by simp [h.1]⟩

theorem kept {given : Option String} (h : ∀ value, given = some value → trim value = value ∧ value ≠ "") :
    (given.map trim).filter (fun value => !value.isEmpty) = given := by
  cases given with
  | none => rfl
  | some value =>
    obtain ⟨ht, hne⟩ := h value rfl
    rw [Option.map_some, ht, Option.filter_some_pos]
    simpa using hne

/-- Normalizing a normalized scope changes nothing. -/
theorem normalized_of_normal {scope : RequestScope} (h : scope.Normal) :
    normalized (some scope.mode) scope.taskSpace scope.tab = scope := by
  by_cases hb : scope.mode = .binding
  · rw [h.binding hb]
    rfl
  obtain ⟨value, hv, htrim, hne, hvalid, hstar⟩ := h.taskSpace hb
  have hts := @kept scope.taskSpace fun value' hv' => by
    rw [hv] at hv'
    cases hv'
    exact ⟨htrim, hne⟩
  rw [normalized, hts, kept h.tab]
  dsimp only [Option.getD_some]
  rw [if_neg]
  rintro (hb' | hn | hx | hx | ⟨hm, hx⟩)
  · exact hb hb'
  · rw [hv] at hn; cases hn
  · rw [hv] at hx; simp [hvalid] at hx
  · rw [hv] at hx; simp [hstar] at hx
  · obtain ⟨b, hb, hvb, hsb⟩ := h.tabbed hm
    rw [hb] at hx
    simp [hvb, hsb] at hx

/-- `normalized` is idempotent. -/
theorem normalized_idempotent (mode : Option ConcurrencyMode) (taskSpace tab : Option String) :
    normalized (some (normalized mode taskSpace tab).mode) (normalized mode taskSpace tab).taskSpace
      (normalized mode taskSpace tab).tab = normalized mode taskSpace tab :=
  normalized_of_normal (normalized_normal mode taskSpace tab)

end RequestScope

def lockKeys (scope : RequestScope) : List String :=
  match scope.mode with
  | .binding => ["binding"]
  | .taskSpace => ["task-space:" ++ scope.taskSpace.getD ""]
  | .taskSpaceTab =>
    ["task-space:" ++ scope.taskSpace.getD "",
      "tab:" ++ scope.taskSpace.getD "" ++ ":" ++ scope.tab.getD ""]

inductive SchedulerError where
  | invalidMaximum
  | limitReached
  | conflict
  | poisoned
  deriving DecidableEq, Repr

/-- What a running request holds. -/
structure PermitGuard where
  keys : List String
  binding : Bool
  generation : UInt64
  requestId : String
  deriving DecidableEq

structure Scheduler where
  maximum : Nat
  active : Nat
  bindingHeld : Bool
  /-- The lock keys held; a set, so the order is of no account. -/
  keys : List String
  deriving DecidableEq

namespace Scheduler

def new (maximum : Nat) : Except SchedulerError Scheduler :=
  if maximum = 0 ∨ 4 < maximum then .error .invalidMaximum
  else .ok ⟨maximum, 0, false, []⟩

/-- Try to acquire all locks in Task Space -> Tab order without queueing. -/
def tryAcquire (s : Scheduler) (generation : UInt64) (requestId : String) (scope : RequestScope) :
    Except SchedulerError (PermitGuard × Scheduler) :=
  if s.maximum ≤ s.active then .error .limitReached
  else if scope.mode = .binding ∧ (s.active ≠ 0 ∨ s.bindingHeld) then .error .conflict
  else if scope.mode ≠ .binding ∧ (s.bindingHeld ∨ (lockKeys scope).any (· ∈ s.keys)) then
    .error .conflict
  else
    .ok (⟨lockKeys scope, scope.mode = .binding, generation, requestId⟩,
      { s with
        active := s.active + 1
        bindingHeld := s.bindingHeld || scope.mode = .binding
        keys := (lockKeys scope).foldl (fun keys key => keys.insert key) s.keys })

/-- Dropping a guard. -/
def release (s : Scheduler) (g : PermitGuard) : Scheduler :=
  { s with
    active := s.active - 1
    bindingHeld := if g.binding then false else s.bindingHeld
    keys := g.keys.reverse.foldl (fun keys key => keys.erase key) s.keys }

end Scheduler

end Protocol
end EgoBridge
