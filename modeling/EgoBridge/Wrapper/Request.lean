import EgoBridge.Bridge.Permits
import EgoBridge.Wrapper.Response

/-!
# Wrapper.Request

The remote wrapper's request for a permit, the request it builds from the permit, and whether the
validators along the way agree on it.

* `issuePermit_ok`   — what a permit handed out by `issue_permit` looks like.
* `validators_agree` — every later validator accepts what `issue_permit` accepted if and only if
                       the label has no control byte and the generation is not zero.
-/

namespace EgoBridge
namespace Wrapper

open Protocol Json Bridge

/-- The script and the environment of one run. -/
structure WrapperArgs where
  script : Bytes
  startupNonce : String
  timeoutMs : UInt64
  cwdLabel : String
  mode : ConcurrencyMode
  taskSpace : Option String
  tabScope : Option String

def requestedScope (a : WrapperArgs) : RequestScope :=
  .normalized (some a.mode) a.taskSpace a.tabScope

def permitRequest (a : WrapperArgs) : PermitRequest where
  protocol := PROTOCOL_VERSION
  messageType := "permit_request"
  scriptBytes := a.script.length
  timeoutMs := a.timeoutMs
  cwdLabel := a.cwdLabel
  concurrencyMode := (requestedScope a).mode
  taskSpaceScope := (requestedScope a).taskSpace
  tabScope := (requestedScope a).tab
  startupNonce := some a.startupNonce

/-- The wrapper's comparison of the permit with what it asked for. -/
def checkPermitScope (a : WrapperArgs) (permit : RequestPermit) : Except WrapperError Unit :=
  if permit.concurrencyMode ≠ (requestedScope a).mode ∨
      permit.taskSpaceScope ≠ (requestedScope a).taskSpace ∨
      permit.tabScope ≠ (requestedScope a).tab then
    .error (.protocol "permit scope does not match request")
  else .ok ()

def innerRequestFromPermit (script : Bytes) (timeoutMs : UInt64) (cwdLabel : String)
    (permit : RequestPermit) : Except WrapperError InnerExecuteRequest :=
  match ofUtf8? script with
  | none => .error (.protocol "script must be UTF-8")
  | some script =>
    .ok
      { protocol := INNER_PROTOCOL_VERSION
        messageType := .execute
        script := script
        timeoutMs := timeoutMs
        cwdLabel := cwdLabel
        defaultTaskSpace := permit.defaultTaskSpace
        concurrencyMode := permit.concurrencyMode
        taskSpaceScope := permit.taskSpaceScope
        tabScope := permit.tabScope
        allowlistRevision := permit.allowlistRevision
        learningBundleDigest := permit.learningBundleDigest }

/-- What becomes of a permit at `now`: the wrapper accepts it and its scope, and the request built
from it is accepted by the wrapper and by `execute`. -/
def AcceptedAt (capability : BridgeCapability) (a : WrapperArgs) (permit : RequestPermit)
    (now : UInt64) : Prop :=
  permit.validate capability now a.script.length = .ok () ∧
  checkPermitScope a permit = .ok () ∧
  ∃ request, innerRequestFromPermit a.script a.timeoutMs a.cwdLabel permit = .ok request ∧
    request.validate capability = .ok () ∧ checkScope request permit = .ok (requestedScope a)

/-! ## Issued permits -/

structure Issued (s : Supervisor) (r : PermitRequest) (nowMillis : UInt64)
    (permit : RequestPermit) : Prop where
  script : r.scriptBytes ≠ 0 ∧ r.scriptBytes ≤ MAX_SCRIPT_BYTES
  timeout : r.timeoutMs ≠ 0 ∧ r.timeoutMs ≤ MAX_EXECUTE_TIMEOUT_MS
  cwdLabel : containsText ".." r.cwdLabel = false
  bindingId : permit.bindingId = s.config.bindingId
  generation : permit.generation = s.lease.generation
  requestId : validTextId permit.requestId 128 = true
  sequence : permit.sequence ≠ 0
  expires : permit.expiresAtUnixMs = satAdd nowMillis 20000
  maxPayload : permit.maxPayloadBytes = 16 * 1024 * 1024
  maxScript : permit.maxScriptBytes = MAX_SCRIPT_BYTES
  defaultTaskSpace : permit.defaultTaskSpace = s.config.defaultTaskSpace
  allowlist : permit.allowlistRevision = s.config.allowlistRevision
  learning : permit.learningBundleDigest = s.config.learningBundleDigest
  scope : permit.scope = .normalized (some r.concurrencyMode) r.taskSpaceScope r.tabScope
  own : permit.concurrencyMode ≠ .binding → permit.taskSpaceScope = some s.config.defaultTaskSpace

theorem issuePermit_ok {s s' : Supervisor} {r : PermitRequest} {now nowMillis : UInt64}
    {requestId : OpaqueId} {key key' : Key} {permit : RequestPermit}
    (h : s.issuePermit r now nowMillis requestId key = (s', .ok (key', permit))) :
    Issued s r nowMillis permit := by
  unfold Supervisor.issuePermit at h
  split at h
  · cases h
  rename_i hcheck
  split at h
  · cases h
  rcases s.takeSequence_cases with ⟨error, ht⟩ | ⟨hlt, ht⟩
  · rw [ht] at h
    cases h
  rw [ht] at h
  dsimp only at h
  obtain ⟨_, hreq, -⟩ := bind_ok hcheck
  rw [checkPermitRequest, ite_error_ok, ite_error_ok, ite_error_ok, ite_error_ok, ite_error_ok,
    ite_error_ok] at hreq
  obtain ⟨-, -, -, hscript, htimeout, hcwd, -⟩ := hreq
  simp only [not_or, Nat.not_lt, UInt64.not_lt, Bool.not_eq_true] at hscript htimeout hcwd
  unfold Supervisor.storePermit at h
  split at h
  · cases h
  rename_i hpermit
  cases h
  rw [permitFor] at hpermit
  dsimp only at hpermit
  obtain ⟨hown, hpermit⟩ := ite_error_ok.mp hpermit
  cases hpermit
  have hsequence : s.nextSequence + 1 ≠ 0 := by
    intro h0
    rw [h0] at hlt
    exact absurd hlt (UInt64.not_lt_zero)
  exact
    { script := hscript
      timeout := htimeout
      cwdLabel := hcwd.2.2
      bindingId := rfl
      generation := rfl
      requestId := requestId.valid
      sequence := hsequence
      expires := rfl
      maxPayload := rfl
      maxScript := rfl
      defaultTaskSpace := rfl
      allowlist := rfl
      learning := rfl
      scope := rfl
      own := by simpa using hown }

theorem requestedScope_normal (a : WrapperArgs) : (requestedScope a).Normal :=
  RequestScope.normalized_normal _ _ _

/-- The permit has the scope the wrapper asked for. -/
theorem Issued.scope_eq {s : Supervisor} {a : WrapperArgs} {nowMillis : UInt64}
    {permit : RequestPermit} (h : Issued s (permitRequest a) nowMillis permit) :
    permit.scope = requestedScope a :=
  h.scope.trans (RequestScope.normalized_of_normal (requestedScope_normal a))

theorem validTextId_of_validScope {value : String} (hne : value ≠ "")
    (hv : validScope value = true) : validTextId value 256 = true := by
  simp only [validScope, Bool.and_eq_true] at hv
  simp only [validTextId, Bool.and_eq_true, Bool.not_eq_true', hv.1, hv.2, and_true]
  simpa using hne

theorem scopeValid_of_normal {r : InnerExecuteRequest} {scope : RequestScope} (hn : scope.Normal)
    (hm : r.concurrencyMode = scope.mode) (hts : r.taskSpaceScope = scope.taskSpace)
    (htab : r.tabScope = scope.tab)
    (hown : scope.mode ≠ .binding → scope.taskSpace = some r.defaultTaskSpace) : r.ScopeValid where
  taskSpace := by
    intro hb
    rw [hm] at hb
    obtain ⟨value, hv, -, hne, hvalid, hstar⟩ := hn.taskSpace hb
    have hdefault : value = r.defaultTaskSpace := Option.some.inj (hv.symm.trans (hown hb))
    rw [hts, hv, Option.getD_some]
    exact ⟨validTextId_of_validScope hne hvalid, by simpa using hstar, hdefault⟩
  tab := by
    intro ht
    rw [hm] at ht
    obtain ⟨value, hv, hvalid, hstar⟩ := hn.tabbed ht
    rw [htab, hv, Option.getD_some]
    exact ⟨validTextId_of_validScope (hn.tab value hv).2 hvalid, by simpa using hstar⟩

section

variable {s : Supervisor} {a : WrapperArgs} {nowMillis now : UInt64} {permit : RequestPermit}

theorem Issued.permit_valid (h : Issued s (permitRequest a) nowMillis permit)
    (hbinding : validTextId s.config.bindingId 128 = true)
    (hspace : isDedicatedTaskSpace s.config.defaultTaskSpace = true)
    (hgen : s.lease.generation ≠ 0) (hnow : now < permit.expiresAtUnixMs) :
    permit.Valid s.config.capability now a.script.length where
  bindingId := h.bindingId ▸ hbinding
  requestId := h.requestId
  generation := h.generation ▸ hgen
  sequence := h.sequence
  unexpired := hnow
  payload := by rw [h.maxPayload]; decide
  script := by
    rw [h.maxScript]
    exact ⟨by decide, Nat.le_refl _, h.script.2⟩
  dedicated := h.defaultTaskSpace ▸ hspace
  allowlist := h.allowlist
  learning := h.learning
  concurrency := by
    show permit.concurrencyMode ∈ [.taskSpaceTab, .taskSpace, .binding]
    cases permit.concurrencyMode <;> decide
  normal := by
    have hn := RequestScope.normalized_of_normal (requestedScope_normal a)
    rw [← h.scope_eq] at hn
    exact hn
  own := fun hb => (h.own hb).trans (by rw [h.defaultTaskSpace])

theorem Issued.request_valid (h : Issued s (permitRequest a) nowMillis permit) {script : String}
    (hscript : a.script = utf8 script)
    (hspace : isDedicatedTaskSpace s.config.defaultTaskSpace = true)
    (hcwd : validTextId a.cwdLabel 128 = true) {request : InnerExecuteRequest}
    (hr : innerRequestFromPermit a.script a.timeoutMs a.cwdLabel permit = .ok request) :
    request.Valid s.config.capability := by
  rw [innerRequestFromPermit, hscript, ofUtf8?_utf8] at hr
  cases hr
  have hsize : (permitRequest a).scriptBytes = (utf8 script).length := congrArg List.length hscript
  have hlen := h.script
  rw [hsize] at hlen
  refine ⟨rfl, rfl, ⟨?_, hlen.2⟩, h.timeout, ⟨hcwd, h.cwdLabel⟩, h.defaultTaskSpace ▸ hspace,
    h.allowlist, h.learning, ?_, ?_⟩
  · rintro rfl
    exact hlen.1 rfl
  · show permit.concurrencyMode ∈ [.taskSpaceTab, .taskSpace, .binding]
    cases permit.concurrencyMode <;> decide
  · refine scopeValid_of_normal (requestedScope_normal a) ?_ ?_ ?_ ?_
    · exact congrArg RequestScope.mode h.scope_eq
    · exact congrArg RequestScope.taskSpace h.scope_eq
    · exact congrArg RequestScope.tab h.scope_eq
    · rw [← h.scope_eq]
      exact fun hb => (h.own hb).trans (by rw [h.defaultTaskSpace])

theorem Issued.scopes (h : Issued s (permitRequest a) nowMillis permit) :
    checkPermitScope a permit = .ok () ∧
      ∀ request, innerRequestFromPermit a.script a.timeoutMs a.cwdLabel permit = .ok request →
        checkScope request permit = .ok (requestedScope a) := by
  have hscope := h.scope_eq
  refine ⟨?_, fun request hr => ?_⟩
  · rw [checkPermitScope, ← hscope, ite_error_ok]
    simp [RequestPermit.scope]
  · unfold innerRequestFromPermit at hr
    split at hr
    · cases hr
    cases hr
    have hn : RequestScope.normalized (some permit.concurrencyMode) permit.taskSpaceScope
        permit.tabScope = permit.scope := by
      have hn := RequestScope.normalized_of_normal (requestedScope_normal a)
      rw [← hscope] at hn
      exact hn
    rw [checkScope, hn, ite_error_ok, hscope]
    refine ⟨?_, rfl⟩
    rw [← hscope]
    simp [RequestPermit.scope]

end

/-- **The validators agree** on what `issue_permit` accepted, but for a control byte in the label
and the generation zero. Normalizing a scope again changes nothing. -/
theorem validators_agree {config : BridgeConfig} {highest started : UInt64} {s0 s s' : Supervisor}
    (hnew : Supervisor.new config highest started = .ok s0)
    (hbinding : validTextId config.bindingId 128 = true) (hs : s.config = config)
    {a : WrapperArgs} {script : String} (hscript : a.script = utf8 script)
    {now nowMillis : UInt64} {requestId : OpaqueId} {key key' : Key} {permit : RequestPermit}
    (h : s.issuePermit (permitRequest a) now nowMillis requestId key = (s', .ok (key', permit))) :
    (∀ mode taskSpace tab, RequestScope.normalized
      (some (RequestScope.normalized mode taskSpace tab).mode)
      (RequestScope.normalized mode taskSpace tab).taskSpace
      (RequestScope.normalized mode taskSpace tab).tab =
        RequestScope.normalized mode taskSpace tab) ∧
    ((∀ later, later < permit.expiresAtUnixMs → AcceptedAt config.capability a permit later) ↔
      (validTextId a.cwdLabel 128 = true ∧ s.lease.generation ≠ 0)) := by
  subst hs
  have hi := issuePermit_ok h
  have hspace : isDedicatedTaskSpace s.config.defaultTaskSpace = true := by
    unfold Supervisor.new at hnew
    exact not_not.mp (ite_error_ok.mp hnew).1
  refine ⟨RequestScope.normalized_idempotent, ?_, ?_⟩
  · intro haccept
    have hpos : 0 < permit.expiresAtUnixMs := by
      rw [hi.expires, UInt64.lt_iff_toNat_lt, satAdd_toNat]
      simp
    obtain ⟨hp, -, request, hr, hv, -⟩ := haccept 0 hpos
    have hcwd := (InnerExecuteRequest.validate_ok.mp hv).cwdLabel.1
    rw [innerRequestFromPermit, hscript, ofUtf8?_utf8] at hr
    cases hr
    exact ⟨hcwd, hi.generation ▸ (RequestPermit.validate_ok.mp hp).generation⟩
  · rintro ⟨hcwd, hgen⟩ later hlater
    obtain ⟨hscopes, hcheck⟩ := hi.scopes
    have hr : ∃ request, innerRequestFromPermit a.script a.timeoutMs a.cwdLabel permit =
        .ok request := by
      rw [innerRequestFromPermit, hscript, ofUtf8?_utf8]
      exact ⟨_, rfl⟩
    obtain ⟨request, hr⟩ := hr
    exact ⟨RequestPermit.validate_ok.mpr (hi.permit_valid hbinding hspace hgen hlater), hscopes,
      request, hr, InnerExecuteRequest.validate_ok.mpr (hi.request_valid hscript hspace hcwd hr),
      hcheck request hr⟩

/-! ## A plain label and one with a tab -/

def brokerConfig : BridgeConfig := { BridgeConfig.bound with brokerStartupNonce := some "n1" }

def brokerSupervisor : Supervisor := .fresh brokerConfig ⟨4, 0, false, []⟩ 0 0

def labelled (cwdLabel : String) : WrapperArgs where
  script := utf8 "1"
  startupNonce := "n1"
  timeoutMs := 1000
  cwdLabel := cwdLabel
  mode := .binding
  taskSpace := none
  tabScope := none

def sampleId : OpaqueId := ⟨"00000000000000000000000000000000", zeroId_length, zeroId_hex⟩

def labelledPermit : RequestPermit where
  bindingId := "b1"
  generation := 1
  requestId := sampleId.text
  sequence := 1
  expiresAtUnixMs := 20000
  maxPayloadBytes := 16 * 1024 * 1024
  maxScriptBytes := MAX_SCRIPT_BYTES
  defaultTaskSpace := "agent-remote:development"
  allowlistRevision := 1
  learningBundleDigest := none
  concurrencyMode := .binding
  taskSpaceScope := none
  tabScope := none

theorem issued_plain :
    (brokerSupervisor.issuePermit (permitRequest (labelled "work")) 0 0 sampleId plainKey).2 =
      .ok (plainKey, labelledPermit) := by rfl

theorem issued_tabbed :
    (brokerSupervisor.issuePermit (permitRequest (labelled "a\tb")) 0 0 sampleId plainKey).2 =
      .ok (plainKey, labelledPermit) := by rfl

theorem validators_agree_plain :
    AcceptedAt brokerConfig.capability (labelled "work") labelledPermit 0 := by
  have hnew : Supervisor.new brokerConfig 0 0 = .ok brokerSupervisor := rfl
  have hscript : (labelled "work").script = utf8 "1" := rfl
  have hissued := Prod.mk.eta.symm.trans (congrArg (Prod.mk _) issued_plain)
  have hagree := (validators_agree hnew (by decide) rfl hscript hissued).2
  exact hagree.mpr ⟨by decide, by decide⟩ 0 (by decide)

/-- A label with a tab is given a permit, and the request built from it is refused. -/
theorem tabbed_label_refused :
    brokerConfig.capability.validate = .ok () ∧ validTextId brokerConfig.bindingId 128 = true ∧
    (brokerSupervisor.issuePermit (permitRequest (labelled "a\tb")) 0 0 sampleId plainKey).2 =
      .ok (plainKey, labelledPermit) ∧
    0 < labelledPermit.expiresAtUnixMs ∧
    ¬ AcceptedAt brokerConfig.capability (labelled "a\tb") labelledPermit 0 := by
  refine ⟨by decide +kernel, by decide, issued_tabbed, by decide, ?_⟩
  rintro ⟨-, -, request, hr, hv, -⟩
  have hcwd := (InnerExecuteRequest.validate_ok.mp hv).cwdLabel.1
  rw [innerRequestFromPermit, labelled, ofUtf8?_utf8] at hr
  cases hr
  exact absurd hcwd (by decide)

end Wrapper
end EgoBridge
