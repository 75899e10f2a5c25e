import Mathlib.Data.Int.Order.Basic
import Mathlib.Tactic.Common

namespace Kreg
set_option autoImplicit true

/-- `strconv.Quote` on the characters that occur in the program's messages. -/
def quoteChar (c : Char) : List Char :=
  if c = '"' then ['\\', '"']
  else if c = '\\' then ['\\', '\\']
  else if c = '\n' then ['\\', 'n']
  else if c = '\t' then ['\\', 't']
  else if c = '\r' then ['\\', 'r']
  else [c]

def quote (s : String) : String :=
  "\"" ++ String.ofList (s.toList.flatMap quoteChar) ++ "\""

/-- A `[]string` as `%v` prints it. -/
def fmtStrings (l : List String) : String :=
  "[" ++ " ".intercalate l ++ "]"

def cut (sep : Char) : List Char → Option (List Char × List Char)
  | [] => none
  | c :: s => if c = sep then some ([], s) else (cut sep s).map fun p => (c :: p.1, p.2)

def splitChars (sep : Char) : Nat → List Char → List (List Char)
  | 0, _ => []
  | 1, s => [s]
  | n + 2, s =>
    match cut sep s with
    | none => [s]
    | some (a, b) => a :: splitChars sep (n + 1) b

/-- `strings.SplitN` with a one-character separator. -/
def splitN (s : String) (sep : Char) (n : Nat) : List String :=
  (splitChars sep n s.toList).map String.ofList

inductive NumError where
  | invalid
  | range
deriving DecidableEq

def NumError.text : NumError → String
  | .invalid => "invalid syntax"
  | .range => "value out of range"

def digitValue (c : Char) : Nat := c.toNat - '0'.toNat

def parseUintFrom (maxVal : Nat) : List Char → Nat → Except NumError Nat
  | [], n => .ok n
  | c :: s, n =>
    if c.isDigit then
      let n := n * 10 + digitValue c
      if maxVal < n then .error .range else parseUintFrom maxVal s n
    else .error .invalid

/-- `strconv.ParseUint(s, 10, 32)`. -/
def parseUint (s : List Char) : Except NumError Nat :=
  if s = [] then .error .invalid else parseUintFrom 4294967295 s 0

def signedDigits : List Char → Bool × List Char
  | '-' :: s => (true, s)
  | '+' :: s => (false, s)
  | s => (false, s)

/-- `strconv.ParseInt(s, 10, 32)`. -/
def parseInt (s : String) : Except String Int :=
  let fail (e : NumError) : Except String Int :=
    .error ("strconv.ParseInt: parsing " ++ quote s ++ ": " ++ e.text)
  let p := signedDigits s.toList
  match parseUint p.2 with
  | .error e => fail e
  | .ok n =>
    if p.1 then (if 2147483648 < n then fail .range else .ok (-n))
    else if 2147483648 ≤ n then fail .range
    else .ok n

def parseBool (s : String) : Except String Bool :=
  if s ∈ ["1", "t", "T", "true", "TRUE", "True"] then .ok true
  else if s ∈ ["0", "f", "F", "false", "FALSE", "False"] then .ok false
  else .error ("strconv.ParseBool: parsing " ++ quote s ++ ": " ++ NumError.invalid.text)

end Kreg
