import LoadEngine.Json.Basic
import LoadEngine.Duration

/-!
Reading a value from its text; the reader of a part gives what it read and the text behind it.
Numbers that are written whole and fit 64 bits stay whole, all others become floats; of several
fields of one name the last counts; values nest at most `127` deep.
-/

namespace LoadEngine.Json

def skipBlank : List Char → List Char
  | c :: rest => if c = ' ' ∨ c = '\n' ∨ c = '\t' ∨ c = '\r' then skipBlank rest else c :: rest
  | [] => []

def expect : List Char → List Char → Option (List Char)
  | [], rest => some rest
  | w :: word, c :: rest => if w = c then expect word rest else none
  | _ :: _, [] => none

def hexDigit? (c : Char) : Option Nat :=
  if '0' ≤ c ∧ c ≤ '9' then some (c.toNat - 48)
  else if 'a' ≤ c ∧ c ≤ 'f' then some (c.toNat - 87)
  else if 'A' ≤ c ∧ c ≤ 'F' then some (c.toNat - 55)
  else none

def hexUnit : List Char → Option (Nat × List Char)
  | a :: b :: c :: d :: rest => do
    let a ← hexDigit? a
    let b ← hexDigit? b
    let c ← hexDigit? c
    let d ← hexDigit? d
    some (((a * 16 + b) * 16 + c) * 16 + d, rest)
  | _ => none

/-- The character of an escape of four digits, or of two such escapes if the first is the first half
of a pair. A half on its own is refused. -/
def unicodeEscape (text : List Char) : Option (Char × List Char) := do
  let (first, rest) ← hexUnit text
  if 0xD800 ≤ first ∧ first < 0xDC00 then
    let rest ← expect ['\\', 'u'] rest
    let (second, rest) ← hexUnit rest
    if 0xDC00 ≤ second ∧ second < 0xE000 then
      some (Char.ofNat (0x10000 + (first - 0xD800) * 0x400 + (second - 0xDC00)), rest)
    else none
  else if 0xDC00 ≤ first ∧ first < 0xE000 then none
  else some (Char.ofNat first, rest)

def simpleEscape? : Char → Option Char
  | '"' => some '"'
  | '\\' => some '\\'
  | '/' => some '/'
  | 'b' => some '\x08'
  | 'f' => some '\x0c'
  | 'n' => some '\n'
  | 'r' => some '\r'
  | 't' => some '\t'
  | _ => none

def stringTail : Nat → List Char → List Char → Option (String × List Char)
  | 0, _, _ => none
  | fuel + 1, read, text =>
    match text with
    | '"' :: rest => some (String.ofList read.reverse, rest)
    | '\\' :: 'u' :: rest =>
      match unicodeEscape rest with
      | some (c, rest) => stringTail fuel (c :: read) rest
      | none => none
    | '\\' :: c :: rest =>
      match simpleEscape? c with
      | some c => stringTail fuel (c :: read) rest
      | none => none
    | c :: rest => if c.toNat < 0x20 then none else stringTail fuel (c :: read) rest
    | [] => none

def isDigit (c : Char) : Bool := '0' ≤ c && c ≤ '9'

def digitsValue (digits : List Char) : Nat :=
  digits.foldl (fun n c => n * 10 + (c.toNat - 48)) 0

def scaledFloat? (mantissa : Nat) (exponent : Int) : Option Float :=
  let size := (Nat.toDigits 10 mantissa).length + exponent
  if mantissa = 0 ∨ size < -400 then some 0
  else if 400 < size then none
  else
    let x := Float.ofScientific mantissa (exponent < 0) exponent.natAbs
    if x.isInf then none else some x

/-- A number written whole, if it fits 64 bits; a zero keeps its sign only as a float. -/
def wholeNumber? (negative : Bool) (n : Nat) : Option Int :=
  if negative then if 0 < n ∧ n ≤ 2 ^ 63 then some (-(n : Int)) else none
  else if n ≤ Nanos.maxCount then some n else none

def exponentPart (text : List Char) : Option (Int × List Char) :=
  let (negative, rest) := match text with
    | '-' :: rest => (true, rest)
    | '+' :: rest => (false, rest)
    | rest => (false, rest)
  let digits := rest.takeWhile isDigit
  if digits.isEmpty then none
  else
    let n : Int := digitsValue digits
    some (if negative then -n else n, rest.dropWhile isDigit)

def numberTail (negative : Bool) (whole text : List Char) : Option (Json × List Char) := do
  let (fraction, isFraction, text) ← match text with
    | '.' :: rest =>
      let digits := rest.takeWhile isDigit
      if digits.isEmpty then none else some (digits, true, rest.dropWhile isDigit)
    | rest => some ([], false, rest)
  let (exponent, isScaled, text) ← match text with
    | 'e' :: rest => (exponentPart rest).map fun (n, rest) => (n, true, rest)
    | 'E' :: rest => (exponentPart rest).map fun (n, rest) => (n, true, rest)
    | rest => some (0, false, rest)
  let mantissa := digitsValue (whole ++ fraction)
  match isFraction || isScaled, wholeNumber? negative mantissa with
  | false, some n => some (.int n, text)
  | _, _ =>
    let x ← scaledFloat? mantissa (exponent - fraction.length)
    some (.float (if negative then -x else x), text)

def number (text : List Char) : Option (Json × List Char) :=
  let (negative, rest) := match text with
    | '-' :: rest => (true, rest)
    | rest => (false, rest)
  match rest with
  | '0' :: rest =>
    if (rest.head?.map isDigit).getD false then none else numberTail negative ['0'] rest
  | rest =>
    let digits := rest.takeWhile isDigit
    if digits.isEmpty then none else numberTail negative digits (rest.dropWhile isDigit)

def addField (fields : List (String × Json)) (name : String) (value : Json) :
    List (String × Json) :=
  fields.filter (fun field => field.1 != name) ++ [(name, value)]

mutual

def value : Nat → Nat → List Char → Option (Json × List Char)
  | 0, _, _ => none
  | fuel + 1, depth, text =>
    match text with
    | 'n' :: rest => (expect ['u', 'l', 'l'] rest).map (.null, ·)
    | 't' :: rest => (expect ['r', 'u', 'e'] rest).map (.bool true, ·)
    | 'f' :: rest => (expect ['a', 'l', 's', 'e'] rest).map (.bool false, ·)
    | '"' :: rest => (stringTail fuel [] rest).map fun (s, rest) => (.str s, rest)
    | '[' :: rest =>
      if depth ≤ 1 then none
      else match skipBlank rest with
        | ']' :: rest => some (.arr [], rest)
        | rest => items fuel (depth - 1) [] rest
    | '{' :: rest =>
      if depth ≤ 1 then none
      else match skipBlank rest with
        | '}' :: rest => some (.obj [], rest)
        | rest => members fuel (depth - 1) [] rest
    | text => number text

def items : Nat → Nat → List Json → List Char → Option (Json × List Char)
  | 0, _, _, _ => none
  | fuel + 1, depth, read, text =>
    match value fuel depth text with
    | none => none
    | some (item, rest) =>
      match skipBlank rest with
      | ',' :: rest => items fuel depth (item :: read) (skipBlank rest)
      | ']' :: rest => some (.arr (item :: read).reverse, rest)
      | _ => none

def members : Nat → Nat → List (String × Json) → List Char → Option (Json × List Char)
  | 0, _, _, _ => none
  | fuel + 1, depth, read, text =>
    match text with
    | '"' :: rest =>
      match stringTail fuel [] rest with
      | none => none
      | some (name, rest) =>
        match skipBlank rest with
        | ':' :: rest =>
          match value fuel depth (skipBlank rest) with
          | none => none
          | some (item, rest) =>
            let read := addField read name item
            match skipBlank rest with
            | ',' :: rest => members fuel depth read (skipBlank rest)
            | '}' :: rest => some (.obj read, rest)
            | _ => none
        | _ => none
    | _ => none

end

def depthLimit : Nat := 128

def ofText? (text : String) : Option Json :=
  let chars := text.toList
  match value (2 * chars.length + 2) depthLimit (skipBlank chars) with
  | some (j, rest) => if (skipBlank rest).isEmpty then some j else none
  | none => none

end LoadEngine.Json
