import DotFormat.Json.Basic
import DotFormat.Text.Decimal

/-!
This module contains the reading of JSON. Besides the values of the standard the words `NaN`,
`Infinity` and `-Infinity` are read. A text is read from left to right, so of several errors the first
one is reported.
-/

namespace DotFormat.Json

inductive ReadError where
  | malformed
  | numeralTooLong
  deriving DecidableEq, Repr

def isSpace (c : Char) : Bool :=
  c == ' ' || c == '\t' || c == '\n' || c == '\r'

def skipSpace (text : List Char) : List Char :=
  text.dropWhile isSpace

def hexDigit? (c : Char) : Option Nat :=
  if c.isDigit then some (c.toNat - '0'.toNat)
  else if 'a' ≤ c ∧ c ≤ 'f' then some (c.toNat - 'a'.toNat + 10)
  else if 'A' ≤ c ∧ c ≤ 'F' then some (c.toNat - 'A'.toNat + 10)
  else none

def hexUnit? (a b c d : Char) : Option Nat := do
  let a ← hexDigit? a
  let b ← hexDigit? b
  let c ← hexDigit? c
  let d ← hexDigit? d
  return ((a * 16 + b) * 16 + c) * 16 + d

/--
The character that a backslash and another character stand for.
-/
def escaped? : Char → Option Char
  | '"' => some '"'
  | '\\' => some '\\'
  | '/' => some '/'
  | 'b' => some '\x08'
  | 'f' => some '\x0c'
  | 'n' => some '\n'
  | 'r' => some '\r'
  | 't' => some '\t'
  | _ => none

def isHighSurrogate (n : Nat) : Bool :=
  0xD800 ≤ n && n < 0xDC00

def isLowSurrogate (n : Nat) : Bool :=
  0xDC00 ≤ n && n < 0xE000

def joinSurrogates (high low : Nat) : Char :=
  Char.ofNat (0x10000 + (high - 0xD800) * 0x400 + (low - 0xDC00))

/--
The character of a code unit that stands alone. A surrogate becomes the replacement character.
-/
def unitChar (n : Nat) : Char :=
  if isHighSurrogate n || isLowSurrogate n then '\uFFFD' else Char.ofNat n

/--
The characters of a string that is written with the given code units and code points. A pair of
surrogates is one character.
-/
def joinUnits : List Nat → List Char
  | [] => []
  | [unit] => [unitChar unit]
  | high :: low :: rest =>
    if isHighSurrogate high && isLowSurrogate low then joinSurrogates high low :: joinUnits rest
    else unitChar high :: joinUnits (low :: rest)

/--
The units up to the quotation mark that ends a string, and the rest behind that mark.
-/
def readUnits : List Char → Except ReadError (List Nat × List Char)
  | [] => .error .malformed
  | '"' :: rest => .ok ([], rest)
  | '\\' :: 'u' :: a :: b :: c :: d :: rest =>
    match hexUnit? a b c d with
    | none => .error .malformed
    | some unit => (readUnits rest).map fun (units, rest) => (unit :: units, rest)
  | '\\' :: c :: rest =>
    match escaped? c with
    | none => .error .malformed
    | some c => (readUnits rest).map fun (units, rest) => (c.toNat :: units, rest)
  | c :: rest =>
    if c == '\\' || c.toNat < 0x20 then .error .malformed
    else (readUnits rest).map fun (units, rest) => (c.toNat :: units, rest)

def readString (text : List Char) : Except ReadError (String × List Char) :=
  (readUnits text).map fun (units, rest) => (String.ofList (joinUnits units), rest)

/--
The rest of a text that begins with a given piece.
-/
def behind? : List Char → List Char → Option (List Char)
  | [], text => some text
  | _ :: _, [] => none
  | c :: piece, d :: text => if c == d then behind? piece text else none

/--
The fraction that a text begins with, if it does: a point and digits.
-/
def fraction (text : List Char) : List Char :=
  match text with
  | '.' :: rest =>
    match rest.takeWhile Char.isDigit with
    | [] => []
    | digits => '.' :: digits
  | _ => []

/--
The exponent that a text begins with, if it does: a letter, maybe a sign, and digits.
-/
def exponent (text : List Char) : List Char :=
  match text with
  | e :: rest =>
    if e == 'e' || e == 'E' then
      let sign := (rest.take 1).filter fun c => c == '+' || c == '-'
      match (rest.drop sign.length).takeWhile Char.isDigit with
      | [] => []
      | digits => e :: sign ++ digits
    else []
  | _ => []

/--
The number that a text begins with. An integer part with several digits does not begin with zero.
-/
def readNumber (text : List Char) : Except ReadError (Json × List Char) :=
  let sign := (text.take 1).filter (· == '-')
  let unsigned := text.drop sign.length
  let digits :=
    if unsigned.head? = some '0' then ['0'] else unsigned.takeWhile Char.isDigit
  if digits.isEmpty then .error .malformed
  else
    let rest := unsigned.drop digits.length
    let fraction := fraction rest
    let exponent := exponent (rest.drop fraction.length)
    if fraction.isEmpty && exponent.isEmpty then
      match Text.readDigits digits with
      | .error .tooLong => .error .numeralTooLong
      | .ok n => .ok (.int (if sign.isEmpty then n else -(n : Int)), rest)
    else
      .ok (.real (String.ofList (sign ++ digits ++ fraction ++ exponent)),
        rest.drop (fraction.length + exponent.length))

def literals : List (String × Json) :=
  [("null", .null), ("true", .bool true), ("false", .bool false), ("NaN", .real "NaN"),
    ("Infinity", .real "Infinity"), ("-Infinity", .real "-Infinity")]

def readScalar (text : List Char) : Except ReadError (Json × List Char) :=
  match literals.findSome? fun (word, value) => (behind? word.toList text).map (value, ·) with
  | some found => .ok found
  | none => readNumber text

mutual

/--
The value that a text begins with, and the rest behind it. The fuel bounds the depth of the calls.
-/
def readValue : Nat → List Char → Except ReadError (Json × List Char)
  | 0, _ => .error .malformed
  | fuel + 1, text =>
    match text with
    | '"' :: rest => (readString rest).map fun (s, rest) => (.str s, rest)
    | '[' :: rest =>
      match skipSpace rest with
      | ']' :: rest => .ok (.arr [], rest)
      | rest => (readItems fuel rest).map fun (items, rest) => (.arr items, rest)
    | '\x7b' :: rest =>
      match skipSpace rest with
      | '\x7d' :: rest => .ok (.obj [], rest)
      | rest => (readMembers fuel rest).map fun (pairs, rest) => (.obj (collect pairs), rest)
    | text => readScalar text

def readItems : Nat → List Char → Except ReadError (List Json × List Char)
  | 0, _ => .error .malformed
  | fuel + 1, text =>
    match readValue fuel text with
    | .error e => .error e
    | .ok (item, rest) =>
      match skipSpace rest with
      | ']' :: rest => .ok ([item], rest)
      | ',' :: rest =>
        (readItems fuel (skipSpace rest)).map fun (items, rest) => (item :: items, rest)
      | _ => .error .malformed

def readMembers : Nat → List Char → Except ReadError (List (String × Json) × List Char)
  | 0, _ => .error .malformed
  | fuel + 1, text =>
    match text with
    | '"' :: rest =>
      match readString rest with
      | .error e => .error e
      | .ok (key, rest) =>
        match skipSpace rest with
        | ':' :: rest =>
          match readValue fuel (skipSpace rest) with
          | .error e => .error e
          | .ok (value, rest) =>
            match skipSpace rest with
            | '\x7d' :: rest => .ok ([(key, value)], rest)
            | ',' :: rest =>
              (readMembers fuel (skipSpace rest)).map fun (pairs, rest) =>
                ((key, value) :: pairs, rest)
            | _ => .error .malformed
        | _ => .error .malformed
    | _ => .error .malformed

end

def read (text : String) : Except ReadError Json :=
  match readValue (2 * text.toList.length + 2) (skipSpace text.toList) with
  | .error e => .error e
  | .ok (json, rest) => if (skipSpace rest).isEmpty then .ok json else .error .malformed

end DotFormat.Json
