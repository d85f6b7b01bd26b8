import Mathlib.Data.List.TakeWhile
import EgoBridge.Json.Range

/-!
# Json.Parse

A strict JSON parser: one value with whitespace around it, no member name twice in one object, no
number out of range, at most 127 nested arrays and objects.

The value parsers call each other, so they run on fuel; each call consumes a character, and
`parse` gives them one unit more than the text has characters. `depth` is the nesting still
allowed. A parser returns the value and the text after it.
-/

namespace EgoBridge
namespace Json

inductive ParseError where
  | invalid
  | duplicateKey (key : String)
  | trailingData
  deriving DecidableEq, Repr

/-- `Display` for `StrictJsonError`, without the parser's own diagnostic. -/
def ParseError.message : ParseError → String
  | .invalid => "invalid JSON"
  | .duplicateKey key => "duplicate JSON key: " ++ key
  | .trailingData => "trailing JSON data"

def isWs (c : Char) : Bool := c = ' ' || c = '\n' || c = '\t' || c = '\r'

def skipWs (cs : List Char) : List Char := cs.dropWhile isWs

/-! ## Numbers -/

/-- A nonempty run of digits at the head of the text. -/
def scanDigits (cs : List Char) : Option (Digits × List Char) :=
  if h : cs.takeWhile Char.isDigit = [] then none
  else some (⟨cs.takeWhile Char.isDigit, h, fun _ hc => List.mem_takeWhile_imp hc⟩,
    cs.dropWhile Char.isDigit)

def scanFrac : List Char → Option (Option Digits × List Char)
  | '.' :: r => (scanDigits r).map fun p => (some p.1, p.2)
  | r => some (none, r)

def scanExp : List Char → Option (Option (ExpMark × Digits) × List Char)
  | c :: r =>
    if c = 'e' ∨ c = 'E' then
      match r with
      | '+' :: r' => (scanDigits r').map fun p => (some (⟨c = 'E', some true⟩, p.1), p.2)
      | '-' :: r' => (scanDigits r').map fun p => (some (⟨c = 'E', some false⟩, p.1), p.2)
      | _ => (scanDigits r).map fun p => (some (⟨c = 'E', none⟩, p.1), p.2)
    else some (none, c :: r)
  | [] => some (none, [])

/-- What follows the sign: no leading zero before another digit. -/
def scanUnsigned (negative : Bool) (cs : List Char) : Option (Number × List Char) :=
  match scanDigits cs with
  | none => none
  | some (int, r) =>
    if h : int.chars = ['0'] ∨ int.chars.head? ≠ some '0' then
      match scanFrac r with
      | none => none
      | some (frac, r') =>
        match scanExp r' with
        | none => none
        | some (exp, r'') => some (⟨negative, int, frac, exp, h⟩, r'')
    else none

def scanNumber : List Char → Option (Number × List Char)
  | '-' :: r => scanUnsigned true r
  | r => scanUnsigned false r

/-! ## Strings -/

def hexVal (c : Char) : Option Nat :=
  if '0' ≤ c ∧ c ≤ '9' then some (c.toNat - 48)
  else if 'a' ≤ c ∧ c ≤ 'f' then some (c.toNat - 87)
  else if 'A' ≤ c ∧ c ≤ 'F' then some (c.toNat - 55)
  else none

def hex4 (a b c d : Char) : Option Nat :=
  match hexVal a, hexVal b, hexVal c, hexVal d with
  | some x, some y, some z, some w => some (((x * 16 + y) * 16 + z) * 16 + w)
  | _, _, _, _ => none

/-- The character a one-letter escape stands for. -/
def shortEscape (c : Char) : Option Char :=
  if c = '"' then some '"'
  else if c = '\\' then some '\\'
  else if c = '/' then some '/'
  else if c = 'b' then some '\x08'
  else if c = 'f' then some '\x0c'
  else if c = 'n' then some '\n'
  else if c = 'r' then some '\r'
  else if c = 't' then some '\t'
  else none

def isLead (n : Nat) : Bool := 0xD800 ≤ n && n < 0xDC00

def isTrail (n : Nat) : Bool := 0xDC00 ≤ n && n < 0xE000

/-- A string's characters up to its closing quote. -/
def lexString : List Char → Option (List Char × List Char)
  | [] => none
  | '"' :: r => some ([], r)
  | '\\' :: 'u' :: a :: b :: c :: d :: r =>
    match hex4 a b c d with
    | none => none
    | some n =>
      if isTrail n then none
      else if isLead n then
        -- a surrogate pair: the trail has to follow at once
        match r with
        | '\\' :: 'u' :: a' :: b' :: c' :: d' :: r' =>
          match hex4 a' b' c' d' with
          | none => none
          | some m =>
            if isTrail m then
              (lexString r').map fun p =>
                (Char.ofNat ((n - 0xD800) * 0x400 + (m - 0xDC00) + 0x10000) :: p.1, p.2)
            else none
        | _ => none
      else (lexString r).map fun p => (Char.ofNat n :: p.1, p.2)
  | '\\' :: e :: r =>
    match shortEscape e with
    | none => none
    | some x => (lexString r).map fun p => (x :: p.1, p.2)
  | c :: r =>
    if c = '\\' ∨ c.toNat < 32 then none
    else (lexString r).map fun p => (c :: p.1, p.2)

/-! ## Values -/

/-- Require `text` at the head. -/
def literal (text : List Char) (v : Json) (cs : List Char) : Except ParseError (Json × List Char) :=
  if text.isPrefixOf cs then .ok (v, cs.drop text.length) else .error .invalid

mutual
def parseValue : Nat → Nat → List Char → Except ParseError (Json × List Char)
  | 0, _, _ => .error .invalid
  | fuel + 1, depth, cs =>
    match skipWs cs with
    | [] => .error .invalid
    | c :: r =>
      if c = '"' then
        match lexString r with
        | none => .error .invalid
        | some (s, r') => .ok (.str (String.ofList s), r')
      else if c = '[' then
        if depth ≤ 1 then .error .invalid else parseArray fuel (depth - 1) r
      else if c = '{' then
        if depth ≤ 1 then .error .invalid else parseObject fuel (depth - 1) r
      else if c = 'n' then literal ['u', 'l', 'l'] .null r
      else if c = 't' then literal ['r', 'u', 'e'] (.bool true) r
      else if c = 'f' then literal ['a', 'l', 's', 'e'] (.bool false) r
      else
        match scanNumber (c :: r) with
        | none => .error .invalid
        | some (n, r') => if n.inRange then .ok (.num n, r') else .error .invalid

/-- After `[`. -/
def parseArray : Nat → Nat → List Char → Except ParseError (Json × List Char)
  | 0, _, _ => .error .invalid
  | fuel + 1, depth, cs =>
    if (skipWs cs).head? = some ']' then .ok (.arr [], (skipWs cs).tail)
    else
      match parseValue fuel depth cs with
      | .error e => .error e
      | .ok (v, r) =>
        match parseElems fuel depth r with
        | .error e => .error e
        | .ok (vs, r') => .ok (.arr (v :: vs), r')

/-- After an element. -/
def parseElems : Nat → Nat → List Char → Except ParseError (List Json × List Char)
  | 0, _, _ => .error .invalid
  | fuel + 1, depth, cs =>
    match skipWs cs with
    | [] => .error .invalid
    | c :: r =>
      if c = ']' then .ok ([], r)
      else if c = ',' then
        match parseValue fuel depth r with
        | .error e => .error e
        | .ok (v, r') =>
          match parseElems fuel depth r' with
          | .error e => .error e
          | .ok (vs, r'') => .ok (v :: vs, r'')
      else .error .invalid

/-- After `{`. -/
def parseObject : Nat → Nat → List Char → Except ParseError (Json × List Char)
  | 0, _, _ => .error .invalid
  | fuel + 1, depth, cs =>
    if (skipWs cs).head? = some '}' then .ok (.obj [], (skipWs cs).tail)
    else
      match parseMember fuel depth [] cs with
      | .error e => .error e
      | .ok (m, r) =>
        match parseMembers fuel depth [m.1] r with
        | .error e => .error e
        | .ok (ms, r') => .ok (.obj (m :: ms), r')

/-- One member; `seen` are the names the object already has. -/
def parseMember : Nat → Nat → List String → List Char →
    Except ParseError ((String × Json) × List Char)
  | 0, _, _, _ => .error .invalid
  | fuel + 1, depth, seen, cs =>
    match skipWs cs with
    | [] => .error .invalid
    | c :: r =>
      if c = '"' then
        match lexString r with
        | none => .error .invalid
        | some (k, r') =>
          if String.ofList k ∈ seen then .error (.duplicateKey (String.ofList k))
          else
            match skipWs r' with
            | [] => .error .invalid
            | c' :: r'' =>
              if c' = ':' then
                match parseValue fuel depth r'' with
                | .error e => .error e
                | .ok (v, r3) => .ok ((String.ofList k, v), r3)
              else .error .invalid
      else .error .invalid

/-- After a member. -/
def parseMembers : Nat → Nat → List String → List Char →
    Except ParseError (List (String × Json) × List Char)
  | 0, _, _, _ => .error .invalid
  | fuel + 1, depth, seen, cs =>
    match skipWs cs with
    | [] => .error .invalid
    | c :: r =>
      if c = '}' then .ok ([], r)
      else if c = ',' then
        match parseMember fuel depth seen r with
        | .error e => .error e
        | .ok (m, r') =>
          match parseMembers fuel depth (m.1 :: seen) r' with
          | .error e => .error e
          | .ok (ms, r'') => .ok (m :: ms, r'')
      else .error .invalid
end

/-- The nesting limit, counted the way the parser does: 127 levels are allowed. -/
def depthLimit : Nat := 128

def parse (cs : List Char) : Except ParseError Json :=
  match parseValue (2 * cs.length + 2) depthLimit cs with
  | .error e => .error e
  | .ok (v, r) => if skipWs r = [] then .ok v else .error .trailingData

/-- A number that no double holds is met before the name. -/
example : parse "[1e308, \x7b\"a\": 1, \"a\": 2\x7d]".toList = .error (.duplicateKey "a") ∧
    parse "[1e309, \x7b\"a\": 1, \"a\": 2\x7d]".toList = .error .invalid := by
  decide +kernel

end Json
end EgoBridge
