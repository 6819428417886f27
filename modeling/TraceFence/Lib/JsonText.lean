import Mathlib.Data.List.Basic
import TraceFence.Lib.Json

/-!
# JSON texts

A writer of canonical JSON and a reader of JSON. The writer sorts the keys of every object, puts no
space between tokens and escapes only what it has to; the reader takes any JSON text, and the
constants `NaN`, `Infinity` and `-Infinity`. Texts are lists of characters. How a float is
written, and which float a text of one denotes, are parameters.

## Main definitions

* `JsonText.render`, `JsonText.dumps` — the writer
* `JsonText.loads` — the reader
-/

namespace JsonText

/-! ### Writing -/

/-- How floats are written, and which float a text denotes. -/
structure Floats where
  repr : Binary64 → List Char
  parse : List Char → Binary64

/-- The digits of a number below 16. -/
def hexDigit (n : ℕ) : Char := "0123456789abcdef".toList.getD n '0'

/-- A character of a text. -/
def escape (c : Char) : List Char :=
  if c = '"' then ['\\', '"']
  else if c = '\\' then ['\\', '\\']
  else if c = '\n' then ['\\', 'n']
  else if c = '\r' then ['\\', 'r']
  else if c = '\t' then ['\\', 't']
  else if c = '\x0c' then ['\\', 'f']
  else if c = '\x08' then ['\\', 'b']
  else if c.toNat < 32 then ['\\', 'u', '0', '0', hexDigit (c.toNat / 16), hexDigit (c.toNat % 16)]
  else [c]

/-- A text in quotes. -/
def quote (s : String) : List Char := '"' :: (s.toList.flatMap escape ++ ['"'])

/-- An integer. -/
def renderInt (n : ℤ) : List Char :=
  (if n < 0 then ['-'] else []) ++ Nat.toDigits 10 n.natAbs

/-- A float, with the names of those that are not finite. -/
def renderFloat (floats : Floats) (x : Binary64) : List Char :=
  if x.IsFinite then floats.repr x
  else if x.bits = 0x7ff0000000000000#64 then "Infinity".toList
  else if x.bits = 0xfff0000000000000#64 then "-Infinity".toList
  else "NaN".toList

variable (floats : Floats)

mutual

/-- A value, in the order its objects have. -/
def render : JsonValue → List Char
  | .null => "null".toList
  | .bool true => "true".toList
  | .bool false => "false".toList
  | .int n => renderInt n
  | .float x => renderFloat floats x
  | .str s => quote s
  | .list items => '[' :: (renderItems items ++ [']'])
  | .dict entries => '{' :: (renderEntries entries ++ ['}'])

def renderItems : List JsonValue → List Char
  | [] => []
  | [v] => render v
  | v :: items => render v ++ ',' :: renderItems items

def renderEntries : List (String × JsonValue) → List Char
  | [] => []
  | [e] => renderEntry e
  | e :: entries => renderEntry e ++ ',' :: renderEntries entries

def renderEntry : String × JsonValue → List Char
  | (key, v) => quote key ++ ':' :: render v

end

/-- The most digits an integer may have to be written or read. -/
def maxDigits : ℕ := 4300

mutual

/-- Whether no integer of a value has too many digits. -/
def fits : JsonValue → Bool
  | .int n => (Nat.toDigits 10 n.natAbs).length ≤ maxDigits
  | .list items => fitsItems items
  | .dict entries => fitsEntries entries
  | _ => true

def fitsItems : List JsonValue → Bool
  | [] => true
  | v :: items => fits v && fitsItems items

def fitsEntries : List (String × JsonValue) → Bool
  | [] => true
  | e :: entries => fitsEntry e && fitsEntries entries

def fitsEntry : String × JsonValue → Bool
  | (_, v) => fits v

end

/-- The canonical text of a value, unless an integer in it has too many digits. -/
def dumps (v : JsonValue) : Option (List Char) :=
  if fits v then some (render floats v.sortKeys) else none

/-! ### Reading -/

/-- Spaces. -/
def skip : List Char → List Char
  | c :: rest => if c = ' ' ∨ c = '\t' ∨ c = '\n' ∨ c = '\r' then skip rest else c :: rest
  | [] => []

/-- The value of a hexadecimal digit. -/
def hexValue (c : Char) : Option ℕ :=
  let i := "0123456789abcdefABCDEF".toList.idxOf c
  if i < 16 then some i else if i < 22 then some (i - 6) else none

/-- Four hexadecimal digits. -/
def hexValues (a b c d : Char) : Option ℕ := do
  return 4096 * (← hexValue a) + 256 * (← hexValue b) + 16 * (← hexValue c) + (← hexValue d)

/-- What stands after a backslash, but for `u`. -/
def unescape : Char → Option Char
  | '"' => some '"'
  | '\\' => some '\\'
  | '/' => some '/'
  | 'b' => some '\x08'
  | 'f' => some '\x0c'
  | 'n' => some '\n'
  | 'r' => some '\r'
  | 't' => some '\t'
  | _ => none

/-- The rest of a text in quotes. A surrogate that is not one of a pair stands for no character. -/
def parseText : List Char → Option (List Char × List Char)
  | '"' :: rest => some ([], rest)
  | '\\' :: 'u' :: a :: b :: c :: d :: rest => do
    let value ← hexValues a b c d
    if value < 0xd800 ∨ 0xe000 ≤ value then
      let (text, rest) ← parseText rest
      return (Char.ofNat value :: text, rest)
    else
      match rest with
      | '\\' :: 'u' :: a :: b :: c :: d :: rest =>
        let low ← hexValues a b c d
        if value < 0xdc00 ∧ 0xdc00 ≤ low ∧ low < 0xe000 then
          let (text, rest) ← parseText rest
          return (Char.ofNat (0x10000 + 0x400 * (value - 0xd800) + (low - 0xdc00)) :: text, rest)
        else none
      | _ => none
  | '\\' :: e :: rest => do
    let c ← unescape e
    let (text, rest) ← parseText rest
    return (c :: text, rest)
  | c :: rest =>
    if c.toNat < 32 then none
    else do
      let (text, rest) ← parseText rest
      return (c :: text, rest)
  | [] => none

/-- A number as it is written: its sign, the digits before the point, those after it and the
exponent. -/
structure NumberText where
  negative : Bool
  whole : List Char
  fraction : List Char := []
  /-- The letter, the sign and the digits. -/
  exponent : List Char := []

/-- The characters of a number, but for the sign. -/
def NumberText.unsigned (n : NumberText) : List Char :=
  n.whole ++ ((if n.fraction = [] then [] else '.' :: n.fraction) ++ n.exponent)

/-- The characters of a number. -/
def NumberText.chars (n : NumberText) : List Char :=
  if n.negative then '-' :: n.unsigned else n.unsigned

/-- Digits, and what comes after them. -/
def digits (cs : List Char) : List Char × List Char := cs.span Char.isDigit

/-- The digits before the point: a zero stands alone. -/
def scanWhole : List Char → Option (List Char × List Char)
  | '0' :: rest => some (['0'], rest)
  | cs => if (digits cs).1 = [] then none else some (digits cs)

/-- The digits after the point, if there is one with digits after it. -/
def scanFraction : List Char → List Char × List Char
  | '.' :: rest => if (digits rest).1 = [] then ([], '.' :: rest) else digits rest
  | cs => ([], cs)

/-- The exponent, if there is one. -/
def scanExponent : List Char → List Char × List Char
  | e :: sign :: rest =>
    if e ≠ 'e' ∧ e ≠ 'E' then ([], e :: sign :: rest)
    else if sign = '+' ∨ sign = '-' then
      if (digits rest).1 = [] then ([], e :: sign :: rest)
      else (e :: sign :: (digits rest).1, (digits rest).2)
    else if (digits (sign :: rest)).1 = [] then ([], e :: sign :: rest)
    else (e :: (digits (sign :: rest)).1, (digits (sign :: rest)).2)
  | cs => ([], cs)

/-- A number after its sign. -/
def scanUnsigned (negative : Bool) (cs : List Char) : Option (NumberText × List Char) :=
  (scanWhole cs).map fun (whole, rest) =>
    let (fraction, rest) := scanFraction rest
    let (exponent, rest) := scanExponent rest
    ({ negative, whole, fraction, exponent }, rest)

/-- A number at the start of a text. -/
def scanNumber : List Char → Option (NumberText × List Char)
  | '-' :: rest => scanUnsigned true rest
  | cs => scanUnsigned false cs

/-- The value of a number: an integer, if it has neither fraction nor exponent. -/
def NumberText.value (n : NumberText) : Option JsonValue :=
  if n.fraction = [] ∧ n.exponent = [] then
    if n.whole.length ≤ maxDigits then
      let magnitude := Nat.ofDigitChars 10 n.whole 0
      some (.int (if n.negative then -magnitude else magnitude))
    else none
  else some (.float (floats.parse n.chars))

/-- The entries of an object: of two with one key the first keeps its place, with the value of the
last. -/
def ofPairs (pairs : List (String × JsonValue)) : List (String × JsonValue) :=
  pairs.foldl (fun entries pair =>
    if pair.1 ∈ entries.map Prod.fst then
      entries.map fun entry => if entry.1 = pair.1 then pair else entry
    else entries ++ [pair]) []

mutual

/-- A value at the start of a text. -/
def parseValue : ℕ → List Char → Option (JsonValue × List Char)
  | 0, _ => none
  | fuel + 1, cs =>
    match cs with
    | '"' :: rest => (parseText rest).map fun (text, rest) => (.str (String.ofList text), rest)
    | '[' :: rest =>
      match skip rest with
      | ']' :: rest => some (.list [], rest)
      | rest => (parseItems fuel rest).map fun (items, rest) => (.list items, rest)
    | '{' :: rest =>
      match skip rest with
      | '}' :: rest => some (.dict [], rest)
      | rest => (parseEntries fuel rest).map fun (pairs, rest) => (.dict (ofPairs pairs), rest)
    | 'n' :: 'u' :: 'l' :: 'l' :: rest => some (.null, rest)
    | 't' :: 'r' :: 'u' :: 'e' :: rest => some (.bool true, rest)
    | 'f' :: 'a' :: 'l' :: 's' :: 'e' :: rest => some (.bool false, rest)
    | 'N' :: 'a' :: 'N' :: rest => some (.float ⟨0x7ff8000000000000#64⟩, rest)
    | 'I' :: 'n' :: 'f' :: 'i' :: 'n' :: 'i' :: 't' :: 'y' :: rest =>
      some (.float ⟨0x7ff0000000000000#64⟩, rest)
    | '-' :: 'I' :: 'n' :: 'f' :: 'i' :: 'n' :: 'i' :: 't' :: 'y' :: rest =>
      some (.float ⟨0xfff0000000000000#64⟩, rest)
    | cs => do
      let (number, rest) ← scanNumber cs
      let value ← number.value floats
      return (value, rest)

/-- The items of a list and its bracket. -/
def parseItems : ℕ → List Char → Option (List JsonValue × List Char)
  | 0, _ => none
  | fuel + 1, cs => do
    let (value, rest) ← parseValue fuel cs
    match skip rest with
    | ']' :: rest => return ([value], rest)
    | ',' :: rest =>
      let (items, rest) ← parseItems fuel (skip rest)
      return (value :: items, rest)
    | _ => none

/-- The entries of an object and its brace. -/
def parseEntries : ℕ → List Char → Option (List (String × JsonValue) × List Char)
  | 0, _ => none
  | fuel + 1, cs =>
    match cs with
    | '"' :: rest => do
      let (key, rest) ← parseText rest
      match skip rest with
      | ':' :: rest =>
        let (value, rest) ← parseValue fuel (skip rest)
        match skip rest with
        | '}' :: rest => return ([(String.ofList key, value)], rest)
        | ',' :: rest =>
          let (pairs, rest) ← parseEntries fuel (skip rest)
          return ((String.ofList key, value) :: pairs, rest)
        | _ => none
      | _ => none
    | _ => none

end

/-- The value of a text. -/
def loads (cs : List Char) : Option JsonValue :=
  match parseValue floats cs.length (skip cs) with
  | some (value, rest) => if skip rest = [] then some value else none
  | none => none

end JsonText
