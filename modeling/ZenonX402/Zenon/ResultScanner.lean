/-
# The scanner of a JSON-RPC response

A response is scanned once, from its first code unit to its last, and what is returned is the
text of its result, untouched. The scanner keeps what is left of the text after its cursor
instead of the cursor. The number of turns that a loop may take is a parameter: a loop that
has none left says so, which is not to refuse the text.

Key definitions: `Halt`, `Counters`, `stringValue`, `number`, `value`, `container`, `resultSlice`,
`snapshotBoundedJsonRpcReadResultText`.
-/
import ZenonX402.Lib.Loop
import ZenonX402.Lib.Rfc8259

namespace ZenonX402
namespace Zenon
namespace Scanner

open CodeUnits Rfc8259
open Js (orReject)

def MAX_REQUEST_ID : Nat := 4294967295

def MAX_RESULT_BYTES : Nat := 1048576

def MAX_RESPONSE_BYTES : Nat := MAX_RESULT_BYTES + 4096

def MAX_DEPTH : Nat := 17

def MAX_VALUES : Nat := 16384 + 3

def MAX_CONTAINERS : Nat := 4096 + 1

def MAX_MEMBERS : Nat := 4096 + 3

def MAX_STRING_BYTES : Nat := 65536

def MAX_KEY_BYTES : Nat := 128

/-- Why a text is not read to its end. -/
inductive Halt where
  | refused
  /-- A loop is to take one more turn than it may. -/
  | outOfTurns
  deriving DecidableEq

/-- The bytes of a text so far, and of the rest of it. -/
def utf8Length (maximum : Nat) : Nat → CodeUnits → Option Nat
  | bytes, [] => some bytes
  | bytes, [c] =>
    if isHigh c || isLow c then none
    else if bytes + width c > maximum then none
    else some (bytes + width c)
  | bytes, c :: d :: a =>
    if isHigh c then
      if isLow d = false then none
      else if bytes + 4 > maximum then none
      else utf8Length maximum (bytes + 4) a
    else if isLow c then none
    else if bytes + width c > maximum then none
    else utf8Length maximum (bytes + width c) (d :: a)

/-- What is counted, and what is found of the envelope: `result` is the text from `resultStart` to
`resultEnd`. -/
structure Counters where
  values : Nat
  containers : Nat
  members : Nat
  versionSeen : Bool
  idSeen : Bool
  result : Option CodeUnits

def Counters.initial : Counters := ⟨0, 0, 0, false, false, none⟩

def Counters.countValue (c : Counters) : Option Counters :=
  if c.values + 1 > MAX_VALUES then none else some { c with values := c.values + 1 }

def Counters.countMember (c : Counters) : Option Counters :=
  if c.members + 1 > MAX_MEMBERS then none else some { c with members := c.members + 1 }

def Counters.countContainer (c : Counters) : Option Counters :=
  if c.containers + 1 > MAX_CONTAINERS then none else some { c with containers := c.containers + 1 }

/-- What is left after the whitespace. -/
def whitespace (a : CodeUnits) : CodeUnits := a.dropWhile isWhitespace

/-- The text between two places, by what is left after each. -/
def slice (a b : CodeUnits) : CodeUnits := a.take (a.length - b.length)

/-! ### Strings -/

def unicodeUnit : Nat → Nat → CodeUnits → Option (UInt16 × CodeUnits)
  | 0, value, a => some (UInt16.ofNat value, a)
  | _ + 1, _, [] => none
  | n + 1, value, c :: a => do
    let digit ← hexDigit c
    unicodeUnit n (value * 16 + digit) a

/-- A unit that is escaped, after the backslash. -/
def escapedUnit : CodeUnits → Option (UInt16 × CodeUnits)
  | [] => none
  | e :: a => if e = 117 then unicodeUnit 4 0 a else (escape e).map fun code => (code, a)

/-- A unit of a string, and whether it is escaped. -/
def stringUnit (c : UInt16) (a : CodeUnits) : Option (UInt16 × Bool × CodeUnits) :=
  if c = 92 then (escapedUnit a).map fun u => (u.1, true, u.2)
  else if c.toNat < 32 then none
  else some (c, false, a)

/-- The unit after the first of two surrogates, escaped as that one is. -/
def lowUnit (escaped : Bool) (a : CodeUnits) : Option (UInt16 × CodeUnits) :=
  match escaped, a with
  | true, b :: u :: a => if b = 92 ∧ u = 117 then unicodeUnit 4 0 a else none
  | false, d :: a => some (d, a)
  | _, _ => none

/-- A character of a string with its bytes. -/
def character (c : UInt16) (a : CodeUnits) : Option (CodeUnits × Nat × CodeUnits) := do
  let (code, escaped, a) ← stringUnit c a
  if isHigh code then do
    let (low, a) ← lowUnit escaped a
    if isLow low then some ([code, low], 4, a) else none
  else if isLow code then none
  else some ([code], width code, a)

/-- What a string holds is of use only where the source captures it. -/
def stringLoop (maximum : Nat) :
    Nat → CodeUnits → Nat → CodeUnits → Except Halt (CodeUnits × CodeUnits)
  | _, _, _, [] => .error .refused
  | 0, _, _, _ :: _ => .error .outOfTurns
  | n + 1, decoded, bytes, c :: a =>
    if c = 34 then .ok (decoded, a)
    else do
      let (units, size, a) ← orReject (character c a) .refused
      if bytes + size > maximum then .error .refused
      else stringLoop maximum n (decoded ++ units) (bytes + size) a

def stringValue (n maximum : Nat) : CodeUnits → Except Halt (CodeUnits × CodeUnits)
  | [] => .error .refused
  | c :: a => if c = 34 then stringLoop maximum n [] 0 a else .error .refused

/-! ### Numbers -/

def digits (a : CodeUnits) : Option CodeUnits :=
  if a.takeWhile isDigit = [] then none else some (a.dropWhile isDigit)

def sign (isSign : UInt16 → Bool) : CodeUnits → CodeUnits
  | [] => []
  | c :: a => if isSign c then a else c :: a

def integer : CodeUnits → Option CodeUnits
  | [] => none
  | c :: a =>
    if c = 48 then if (a.takeWhile isDigit).isEmpty then some a else none
    else if 49 ≤ c.toNat ∧ c.toNat ≤ 57 then digits (c :: a)
    else none

def fraction : CodeUnits → Option CodeUnits
  | [] => some []
  | c :: a => if c = 46 then digits a else some (c :: a)

def exponent : CodeUnits → Option CodeUnits
  | [] => some []
  | c :: a => if c = 101 || c = 69 then digits (sign (fun s => s = 43 || s = 45) a)
      else some (c :: a)

def number (a : CodeUnits) : Option CodeUnits := do
  let a ← integer (sign (fun s => s = 45) a)
  let a ← fraction a
  let a ← exponent a
  if a.head?.all isDelimiter then some a else none

/-! ### Containers -/

inductive Kind
  | string
  | number
  | boolean
  | null
  | object
  | array
  deriving DecidableEq

def isReserved (key : CodeUnits) : Bool := key = units "__proto__" || key = units "constructor"
    || key = units "prototype"

/-- The key before a member of an object, with what is left after its colon. -/
def memberKey (n : Nat) (object : Bool) (admits : CodeUnits → Bool) (seen : List CodeUnits)
    (a : CodeUnits) :
    Except Halt (CodeUnits × CodeUnits) :=
  if object then do
    let (key, a) ← stringValue n MAX_KEY_BYTES a
    if isReserved key || seen.contains key || !admits key then .error .refused
    else match whitespace a with
      | [] => .error .refused
      | d :: a => if d = 58 then .ok (key, a) else .error .refused
  else .ok ([], a)

/-- What a container does with a member, by its key and what is left at its start. -/
abbrev Entry := CodeUnits → CodeUnits → Counters → Except Halt (CodeUnits × Counters)

def containerLoop (n : Nat) (object : Bool) (admits : CodeUnits → Bool) (entry : Entry) :
    Nat → List CodeUnits → CodeUnits → Counters → Except Halt (CodeUnits × Counters)
  | _, _, [], _ => .error .refused
  | 0, _, _ :: _, _ => .error .outOfTurns
  | m + 1, seen, c :: a, k => do
    let k ← orReject k.countMember .refused
    let (key, a) ← memberKey n object admits seen (whitespace (c :: a))
    let (a, k) ← entry key (whitespace a) k
    match whitespace a with
    | [] => .error .refused
    | d :: a =>
      if d = closing object then .ok (a, k)
      else if d = 44 then containerLoop n object admits entry m (key :: seen) a k
      else .error .refused

/-- `container`, after its first unit. -/
def container (n : Nat) (object : Bool) (admits : CodeUnits → Bool) (entry : Entry)
    (a : CodeUnits) (k : Counters) :
    Except Halt (CodeUnits × Counters) := do
  let k ← orReject k.countContainer .refused
  match whitespace a with
  | [] => .error .refused
  | d :: a => if d = closing object then .ok (a, k) else containerLoop n object admits entry n [] (d :: a) k

/-- `value`, where `levels` containers may still be nested: `MAX_DEPTH` less the depth. -/
def value (n : Nat) (levels : Nat) (a : CodeUnits) (k : Counters) :
    Except Halt (Kind × CodeUnits × Counters) := do
  let k ← orReject k.countValue .refused
  match whitespace a with
  | [] => .error .refused
  | c :: a =>
    if c = 34 then (stringValue n MAX_STRING_BYTES (c :: a)).map fun r => (Kind.string, r.2, k)
    else if c = 45 || isDigit c then (orReject (number (c :: a)) .refused).map fun r => (Kind.number, r, k)
    else if (c :: a).take 4 = literalUnits (some true) then .ok (Kind.boolean, (c :: a).drop 4, k)
    else if (c :: a).take 5 = literalUnits (some false) then .ok (Kind.boolean, (c :: a).drop 5, k)
    else if (c :: a).take 4 = literalUnits none then .ok (Kind.null, (c :: a).drop 4, k)
    else if c ≠ 123 ∧ c ≠ 91 then .error .refused
    else match levels with
      | 0 => .error .refused
      | levels + 1 =>
        (container n (decide (c = 123)) (fun _ => true)
          (fun _ a k => (value n levels a k).map Prod.snd) a k).map fun r =>
          (if c = 123 then Kind.object else Kind.array, r)

/-! ### The envelope -/

def isEnvelopeKey (key : CodeUnits) : Bool :=
  key = units "jsonrpc" || key = units "id" || key = units "result"

/-- A member of the envelope. -/
def envelopeEntry (n : Nat) (expectedId : CodeUnits) : Entry := fun key a k =>
  if key = units "jsonrpc" then do
    let k ← orReject k.countValue .refused
    let (s, a) ← stringValue n MAX_STRING_BYTES a
    if s = units "2.0" then .ok (a, { k with versionSeen := true }) else .error .refused
  else do
    let (kind, r, k) ← value n (MAX_DEPTH - 1) a k
    if key = units "id" then
      if kind = Kind.number ∧ slice a r = expectedId then .ok (r, { k with idSeen := true })
        else .error .refused
    else if key = units "result" then .ok (r, { k with result := some (slice a r) })
    else .ok (r, k)

def resultSlice (n : Nat) (text expectedId : CodeUnits) : Except Halt CodeUnits := do
  let responseBytes ← orReject (utf8Length MAX_RESPONSE_BYTES 0 text) .refused
  match whitespace text with
  | [] => .error .refused
  | c :: a =>
    if c ≠ 123 then .error .refused
    else do
      let k ← orReject Counters.initial.countValue .refused
      let (a, k) ← container n true isEnvelopeKey (envelopeEntry n expectedId) a k
      if whitespace a ≠ [] || !k.versionSeen || !k.idSeen then .error .refused
      else do
        let result ← orReject k.result .refused
        if responseBytes > MAX_RESULT_BYTES then
          (orReject (utf8Length MAX_RESULT_BYTES 0 result) .refused).map fun _ => result
        else .ok result

/-- One turn of each loop for each unit of the text. -/
def snapshotBoundedJsonRpcReadResultText (text : CodeUnits) (expectedRequestId : Int) :
    Except Halt CodeUnits :=
  if expectedRequestId < 1 ∨ expectedRequestId > MAX_REQUEST_ID then .error .refused
  else resultSlice text.length text (units (toString expectedRequestId))

end Scanner
end Zenon
end ZenonX402
