import EgoBridge.Json.Value
import EgoBridge.Lib.Base64

/-!
# Device.Client

What the device client makes of a control-plane answer, and the renewal call built from it.

An exchange is a request that got no answer or an answer with its status and its body, `none` for
a body that is not JSON. What a request carries is not modelled.
-/

namespace EgoBridge
namespace Device

inductive CredentialError where
  | missing
  | invalidPath
  | unsafePermissions
  | malformed
  | policyInvalid
  | policyConflict
  | rotationConflict
  | compatibilityMismatch
  | pendingExpired
  | identityOriginConflict
  | unsupportedCredentialProfile
  | localLockBusy
  | learningBundleInvalid
  | tooLarge
  | network
  | api (status : UInt16)
  | apiCode (status : UInt16) (code : String)
  | io
  deriving DecidableEq

/-- `Value::get` with a name. -/
def get (v : Json) (name : String) : Option Json :=
  match v with
  | .obj ms => ms.lookup name
  | _ => none

def asStr : Json → Option String
  | .str s => some s
  | _ => none

structure HttpResponse where
  status : UInt16
  body : Option Json

inductive Exchange where
  | sendFailed
  | answered (response : HttpResponse)

def isSuccess (status : UInt16) : Bool := 200 ≤ status && status < 300

/-- The `error.code` of a body, if it is a text of one to 96 bytes. -/
def errorCode (body : Json) : Option String :=
  (((get body "error").bind (get · "code")).bind asStr).filter
    (fun code => !code.isEmpty && (utf8 code).length ≤ 96)

def decodeResponse (response : HttpResponse) : Except CredentialError Json :=
  match response.body with
  | none => .error .network
  | some body =>
    if response.status ≠ 200 ∧ ¬ isSuccess response.status then
      match errorCode body with
      | some code => .error (.apiCode response.status code)
      | none => .error (.api response.status)
    else .ok body

def Exchange.decode : Exchange → Except CredentialError Json
  | .sendFailed => .error .network
  | .answered response => decodeResponse response

def isServerError (status : UInt16) : Bool := 500 ≤ status && status ≤ 599

/-- `str::to_ascii_lowercase`. -/
def toAsciiLowercase (value : String) : String :=
  String.ofList (value.toList.map fun c => if 'A' ≤ c ∧ c ≤ 'Z' then Char.ofNat (c.toNat + 32) else c)

def terminalCodes : List String :=
  ["ego_browser_enrollment_disabled", "ego_browser_enrollment_admission_disabled",
    "ego_browser_execution_admission_disabled", "admission_disabled",
    "ego_browser_profile_mismatch", "ego_browser_signer_mismatch",
    "ego_browser_capability_mismatch", "ego_browser_generation_mismatch",
    "ego_browser_device_conflict", "ego_browser_idempotency_conflict"]

def isRetryableStatus (status : UInt16) : Bool :=
  status = 408 || status = 425 || status = 429 || isServerError status

/-- Reports whether an idempotent ensure request may be retried. -/
def CredentialError.isRetryableEnsureError : CredentialError → Bool
  | .network => true
  | .api status => isRetryableStatus status
  | .apiCode status code =>
    if terminalCodes.contains (toAsciiLowercase code) then false else isRetryableStatus status
  | _ => false

/-! ## The renewal call -/

def isApiIdByte (b : UInt8) : Bool :=
  (0x30 ≤ b && b ≤ 0x39) || (0x41 ≤ b && b ≤ 0x5a) || (0x61 ≤ b && b ≤ 0x7a) ||
    b = 0x2e || b = 0x5f || b = 0x2d

def validateApiId (value : String) : Except CredentialError Unit :=
  if value.isEmpty ∨ 128 < (utf8 value).length ∨ ¬ (utf8 value).all isApiIdByte then
    .error .malformed
  else .ok ()

/-- The two exchanges of a renewal. `signed` is whether the proof message could be built. -/
structure RenewExchange where
  challenge : Exchange
  signed : Bool
  renewal : Exchange

/-- `add_proof_for_generation`, with an identity. -/
def addProof (generation : UInt64) (challenge : Exchange) (signed : Bool) :
    Except CredentialError Unit :=
  if generation = 0 then .error .malformed
  else
    match challenge.decode with
    | .error e => .error e
    | .ok body =>
      match ((get body "data").bind (get · "challenge")).bind asStr with
      | none => .error .malformed
      | some text =>
        match Base64.decode text.toList with
        | none => .error .malformed
        | some challenge =>
          if challenge.length ≠ 32 ∨ ¬ signed then .error .malformed else .ok ()

def renewBinding (bindingId : String) (generation : UInt64) (x : RenewExchange) :
    Except CredentialError Json :=
  match validateApiId bindingId with
  | .error e => .error e
  | .ok () =>
    match addProof generation x.challenge x.signed with
    | .error e => .error e
    | .ok () => x.renewal.decode

end Device
end EgoBridge
