import Harp.Lib.Text
import Mathlib.Algebra.Ring.Nat

/-
  JSON texts and their values (the JSON standard, as `JSON.parse` reads it).

  `Json.parse` is a recursive descent over the characters. Its fuel is twice the length of
  the text: every nested value starts after at least one more character. A number keeps its
  decimal mantissa and exponent. An escaped surrogate without its other half becomes U+FFFD,
  since a `String` holds scalar values only.
-/

/-- A JSON value; `num m e` is `m · 10^e`. -/
inductive Json where
  | null
  | bool (b : Bool)
  | num (mantissa exponent : Int)
  | str (s : String)
  | arr (items : List Json)
  | obj (members : List (String × Json))
  deriving Repr, Inhabited

namespace Json

def isWs (c : Char) : Bool := c == ' ' || c == '\t' || c == '\n' || c == '\r'

def skipWs (cs : List Char) : List Char := cs.dropWhile isWs

/-! ## Strings -/

def hexDigit (c : Char) : Option Nat :=
  if '0' ≤ c ∧ c ≤ '9' then some (c.toNat - '0'.toNat)
  else if 'a' ≤ c ∧ c ≤ 'f' then some (c.toNat - 'a'.toNat + 10)
  else if 'A' ≤ c ∧ c ≤ 'F' then some (c.toNat - 'A'.toNat + 10)
  else none

/-- The code unit of `\uabcd`. -/
def hex4 (a b c d : Char) : Option Nat := do
  pure ((((← hexDigit a) * 16 + (← hexDigit b)) * 16 + (← hexDigit c)) * 16 + (← hexDigit d))

/-- The character of a one-letter escape. -/
def escape : Char → Option Char
  | '"' => some '"'
  | '\\' => some '\\'
  | '/' => some '/'
  | 'b' => some (Char.ofNat 8)
  | 'f' => some (Char.ofNat 12)
  | 'n' => some '\n'
  | 'r' => some '\r'
  | 't' => some '\t'
  | _ => none

/-- The code points of a string literal after its opening quote, and the text behind its
    closing quote. An escape `\uabcd` yields one code unit. -/
def stringBody : List Char → Option (List Nat × List Char)
  | [] => none
  | '"' :: rest => some ([], rest)
  | '\\' :: 'u' :: a :: b :: c :: d :: rest =>
    match hex4 a b c d, stringBody rest with
    | some u, some (us, r) => some (u :: us, r)
    | _, _ => none
  | '\\' :: e :: rest =>
    match escape e, stringBody rest with
    | some x, some (us, r) => some (x.toNat :: us, r)
    | _, _ => none
  | c :: rest =>
    if c.val < 0x20 ∨ c = '\\' then none
    else match stringBody rest with
      | some (us, r) => some (c.toNat :: us, r)
      | none => none

def isHighSurrogate (u : Nat) : Bool := 0xd800 ≤ u && u < 0xdc00

def isLowSurrogate (u : Nat) : Bool := 0xdc00 ≤ u && u < 0xe000

/-- The characters of a list of code points and code units: surrogate pairs are joined. -/
def decodeUnits : List Nat → List Char
  | [] => []
  | [u] => [if isHighSurrogate u || isLowSurrogate u then Char.ofNat 0xfffd else Char.ofNat u]
  | u :: v :: rest =>
    if isHighSurrogate u && isLowSurrogate v then
      Char.ofNat (0x10000 + (u - 0xd800) * 0x400 + (v - 0xdc00)) :: decodeUnits rest
    else if isHighSurrogate u || isLowSurrogate u then
      Char.ofNat 0xfffd :: decodeUnits (v :: rest)
    else Char.ofNat u :: decodeUnits (v :: rest)

def string (cs : List Char) : Option (String × List Char) :=
  (stringBody cs).map fun p => (String.ofList (decodeUnits p.1), p.2)

/-! ## Numbers -/

def isDigit (c : Char) : Bool := '0' ≤ c && c ≤ '9'

def digitsValue (ds : List Char) : Nat :=
  ds.foldl (fun n d => 10 * n + (d.toNat - '0'.toNat)) 0

/-- The digits after a decimal point, when there is one: none is an error. -/
def fraction : List Char → Option (List Char × List Char)
  | '.' :: rest =>
    let ds := rest.takeWhile isDigit
    if ds = [] then none else some (ds, rest.dropWhile isDigit)
  | cs => some ([], cs)

/-- The exponent part, `0` when there is none. -/
def exponent : List Char → Option (Int × List Char)
  | c :: rest =>
    if c = 'e' ∨ c = 'E' then
      let (neg, body) : Bool × List Char := match rest with
        | '+' :: r => (false, r)
        | '-' :: r => (true, r)
        | r => (false, r)
      let ds := body.takeWhile isDigit
      if ds = [] then none
      else
        let n : Int := digitsValue ds
        some (if neg then -n else n, body.dropWhile isDigit)
    else some (0, c :: rest)
  | [] => some (0, [])

/-- An unsigned number: no leading zero before another digit. -/
def unsigned (cs : List Char) : Option (Int × Int × List Char) :=
  let ds := cs.takeWhile isDigit
  if ds = [] ∨ (ds.length > 1 ∧ ds.head? = some '0') then none
  else do
    let (fs, cs) ← fraction (cs.dropWhile isDigit)
    let (e, cs) ← exponent cs
    pure ((digitsValue (ds ++ fs) : Int), e - fs.length, cs)

def number : List Char → Option (Json × List Char)
  | '-' :: rest => (unsigned rest).map fun (m, e, r) => (.num (-m) e, r)
  | cs => (unsigned cs).map fun (m, e, r) => (.num m e, r)

/-! ## Values -/

mutual

def value : Nat → List Char → Option (Json × List Char)
  | 0, _ => none
  | n + 1, cs =>
    match skipWs cs with
    | 'n' :: 'u' :: 'l' :: 'l' :: rest => some (.null, rest)
    | 't' :: 'r' :: 'u' :: 'e' :: rest => some (.bool true, rest)
    | 'f' :: 'a' :: 'l' :: 's' :: 'e' :: rest => some (.bool false, rest)
    | '"' :: rest => (string rest).map fun (s, r) => (.str s, r)
    | '[' :: rest =>
      match skipWs rest with
      | ']' :: r => some (.arr [], r)
      | r => (elements n r).map fun (vs, r') => (.arr vs, r')
    | '{' :: rest =>
      match skipWs rest with
      | '}' :: r => some (.obj [], r)
      | r => (members n r).map fun (ms, r') => (.obj ms, r')
    | rest => number rest

/-- The elements of an array that has one, through its closing bracket. -/
def elements : Nat → List Char → Option (List Json × List Char)
  | 0, _ => none
  | n + 1, cs =>
    match value n cs with
    | none => none
    | some (v, rest) =>
      match skipWs rest with
      | ']' :: r => some ([v], r)
      | ',' :: r => (elements n r).map fun (vs, r') => (v :: vs, r')
      | _ => none

/-- The members of an object that has one, through its closing brace. -/
def members : Nat → List Char → Option (List (String × Json) × List Char)
  | 0, _ => none
  | n + 1, cs =>
    match skipWs cs with
    | '"' :: rest =>
      match string rest with
      | none => none
      | some (key, rest) =>
        match skipWs rest with
        | ':' :: rest =>
          match value n rest with
          | none => none
          | some (v, rest) =>
            match skipWs rest with
            | '}' :: r => some ([(key, v)], r)
            | ',' :: r => (members n r).map fun (ms, r') => ((key, v) :: ms, r')
            | _ => none
        | _ => none
    | _ => none

end

/-- `JSON.parse`, with `none` where it throws a `SyntaxError`. -/
def parse (cs : List Char) : Option Json :=
  match value (2 * cs.length + 2) cs with
  | some (v, rest) => if skipWs rest = [] then some v else none
  | none => none

/-! ## Reading a value -/

/-- `value.key`, with `none` for `undefined`: the last member of that name. -/
def get (key : String) : Json → Option Json
  | .obj ms => (ms.reverse.find? (·.1 == key)).map (·.2)
  | _ => none

/-- The number `m · 10^e` does not round to zero as a double: it exceeds half the least
    subnormal, `2^-1075`. -/
def numTruthy (m e : Int) : Bool :=
  if 0 ≤ e then m != 0 else 10 ^ e.natAbs < m.natAbs * 2 ^ 1075

/-- Whether a JavaScript condition takes the value as true. -/
def truthy : Json → Bool
  | .null => false
  | .bool b => b
  | .num m e => numTruthy m e
  | .str s => s != ""
  | .arr _ => true
  | .obj _ => true

/-! ## Printing a value -/

def isNull : Json → Bool
  | null => true
  | _ => false

mutual

/-- `String(value)`, with `none` where it throws a `TypeError`. -/
def toText (number : Int → Int → String) : Json → Option String
  | .null => some "null"
  | .bool b => some (if b then "true" else "false")
  | .num m e => some (number m e)
  | .str s => some s
  | .arr items => (itemTexts number items).map (Js.join ",")
  | .obj ms => if ms.any (·.1 == "toString") then none else some "[object Object]"

/-- The texts that `Array.prototype.join` puts together: `null` is empty there. -/
def itemTexts (number : Int → Int → String) : List Json → Option (List String)
  | [] => some []
  | v :: rest =>
    match if v.isNull then some "" else toText number v, itemTexts number rest with
    | some t, some ts => some (t :: ts)
    | _, _ => none

end

/-- `${value}` of what may be `undefined`. -/
def textOf (number : Int → Int → String) : Option Json → Option String
  | none => some "undefined"
  | some v => v.toText number

/-- `value === s` for a string `s`. -/
def isStr (s : String) : Option Json → Bool
  | some (.str t) => t == s
  | _ => false

end Json
