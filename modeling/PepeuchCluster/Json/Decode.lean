import PepeuchCluster.Json.Canonical

namespace Json

def isBlank (c : Char) : Bool := c = ' ' || c = '\t' || c = '\n' || c = '\r'

def skipBlanks (text : List Char) : List Char := text.dropWhile isBlank

def hexValue (c : Char) : Option Nat :=
  if '0' ≤ c ∧ c ≤ '9' then some (c.toNat - 48)
  else if 'a' ≤ c ∧ c ≤ 'f' then some (c.toNat - 87)
  else if 'A' ≤ c ∧ c ≤ 'F' then some (c.toNat - 55)
  else none

def hexQuad (a b c d : Char) : Option Nat := do
  let x ← hexValue a
  let y ← hexValue b
  let z ← hexValue c
  let w ← hexValue d
  return ((x * 16 + y) * 16 + z) * 16 + w

def shortEscape (c : Char) : Option Char :=
  if c = '"' ∨ c = '\\' ∨ c = '/' then some c
  else if c = 'n' then some '\n'
  else if c = 'r' then some '\r'
  else if c = 't' then some '\t'
  else if c = 'b' then some (Char.ofNat 8)
  else if c = 'f' then some (Char.ofNat 12)
  else none

/-- The characters up to the closing quote. A surrogate escape counts only as
    half of a pair: a lone one names no character. -/
def parseString : List Char → Option (List Char × List Char)
  | [] => none
  | '"' :: rest => some ([], rest)
  | '\\' :: 'u' :: a :: b :: c :: d :: '\\' :: 'u' :: e :: f :: g :: h :: rest =>
    match hexQuad a b c d, hexQuad e f g h with
    | some high, some low =>
      if 0xd800 ≤ high ∧ high < 0xdc00 ∧ 0xdc00 ≤ low ∧ low < 0xe000 then
        (parseString rest).map fun (text, rest) =>
          (Char.ofNat (0x10000 + (high - 0xd800) * 0x400 + (low - 0xdc00)) :: text, rest)
      else if 0xd800 ≤ high ∧ high < 0xe000 then none
      else
        (parseString ('\\' :: 'u' :: e :: f :: g :: h :: rest)).map fun (text, rest) =>
          (Char.ofNat high :: text, rest)
    | _, _ => none
  | '\\' :: 'u' :: a :: b :: c :: d :: rest =>
    match hexQuad a b c d with
    | some code =>
      if 0xd800 ≤ code ∧ code < 0xe000 then none
      else (parseString rest).map fun (text, rest) => (Char.ofNat code :: text, rest)
    | none => none
  | '\\' :: c :: rest =>
    match shortEscape c with
    | some plain => (parseString rest).map fun (text, rest) => (plain :: text, rest)
    | none => none
  | c :: rest =>
    if c.toNat < 32 then none else (parseString rest).map fun (text, rest) => (c :: text, rest)

def spanDigits (text : List Char) : List Char × List Char := text.span Char.isDigit

def parseWhole : List Char → Option (List Char × List Char)
  | '0' :: rest => some (['0'], rest)
  | text =>
    let (digits, rest) := spanDigits text
    if digits = [] then none else some (digits, rest)

def parseFraction : List Char → List Char × List Char
  | '.' :: text =>
    let (digits, rest) := spanDigits text
    if digits = [] then ([], '.' :: text) else (digits, rest)
  | text => ([], text)

def parseExponent (text : List Char) : Option (Bool × List Char) × List Char :=
  match text with
  | c :: tail =>
    if c = 'e' ∨ c = 'E' then
      let (negative, tail) := match tail with
        | '-' :: tail => (true, tail)
        | '+' :: tail => (false, tail)
        | tail => (false, tail)
      let (digits, rest) := spanDigits tail
      if digits = [] then (none, text) else (some (negative, digits), rest)
    else (none, text)
  | [] => (none, [])

def parseSign : List Char → Bool × List Char
  | '-' :: tail => (true, tail)
  | tail => (false, tail)

/-- A literal without fraction and exponent is an integer, any other one a float. -/
def parseNumber (text : List Char) : Option (Json × List Char) := do
  let (negative, tail) := parseSign text
  let (whole, tail) ← parseWhole tail
  let (fraction, tail) := parseFraction tail
  let (exponent, rest) := parseExponent tail
  if fraction = [] ∧ exponent = none then
    let magnitude : Int := Nat.ofDigitChars 10 whole 0
    return (.number (.int (if negative then -magnitude else magnitude)), rest)
  else
    let value ← Literal.toFloat ⟨negative, whole, fraction, exponent⟩
    return (.number (.float value), rest)

mutual

/-- One value and the text after it. The fuel bounds the nesting and the number
    of items, both of which the length of the text bounds. -/
def parseValue : Nat → List Char → Option (Json × List Char)
  | 0, _ => none
  | fuel + 1, text =>
    match text with
    | 'n' :: 'u' :: 'l' :: 'l' :: rest => some (.null, rest)
    | 't' :: 'r' :: 'u' :: 'e' :: rest => some (.bool true, rest)
    | 'f' :: 'a' :: 'l' :: 's' :: 'e' :: rest => some (.bool false, rest)
    | '"' :: rest => (parseString rest).map fun (chars, rest) => (.str (String.ofList chars), rest)
    | '[' :: rest =>
      match skipBlanks rest with
      | ']' :: rest => some (.arr [], rest)
      | rest => (parseItems fuel rest).map fun (items, rest) => (.arr items, rest)
    | '{' :: rest =>
      match skipBlanks rest with
      | '}' :: rest => some (.obj [], rest)
      | rest => do
        let (fields, rest) ← parseFields fuel rest
        if (fields.map Prod.fst).Nodup then some (.obj fields, rest) else none
    | text => parseNumber text

def parseItems : Nat → List Char → Option (List Json × List Char)
  | 0, _ => none
  | fuel + 1, text => do
    let (item, rest) ← parseValue fuel text
    match skipBlanks rest with
    | ']' :: rest => some ([item], rest)
    | ',' :: rest =>
      (parseItems fuel (skipBlanks rest)).map fun (items, rest) => (item :: items, rest)
    | _ => none

def parseFields : Nat → List Char → Option (List (String × Json) × List Char)
  | 0, _ => none
  | fuel + 1, text =>
    match text with
    | '"' :: rest => do
      let (chars, rest) ← parseString rest
      match skipBlanks rest with
      | ':' :: rest => do
        let (value, rest) ← parseValue fuel (skipBlanks rest)
        match skipBlanks rest with
        | '}' :: rest => some ([(String.ofList chars, value)], rest)
        | ',' :: rest =>
          (parseFields fuel (skipBlanks rest)).map fun (fields, rest) =>
            ((String.ofList chars, value) :: fields, rest)
        | _ => none
      | _ => none
    | _ => none

end

/-- The whole text is one value, with blanks around it allowed. -/
def parse (text : List Char) : Option Json := do
  let (value, rest) ← parseValue (text.length + 1) (skipBlanks text)
  if skipBlanks rest = [] then some value else none

end Json
