import Mathlib.Algebra.GroupWithZero.Nat
import Mathlib.Tactic.Common

/-
  JavaScript string operations, on the characters of a `String`.

  Each definition bears the name of the method it models and recurses on the list of
  characters, so that it evaluates. Only operations whose result does not depend on how a
  character outside the basic plane is split into code units are here, save `sliceTo`,
  which counts code units.
-/

namespace Js

/-- `\s` of a regular expression, and what `trim` strips: WhiteSpace or LineTerminator. -/
def isSpace (c : Char) : Bool :=
  c.val == 0x20 || (0x09 ≤ c.val && c.val ≤ 0x0d) || c.val == 0xa0 || c.val == 0x1680 ||
    (0x2000 ≤ c.val && c.val ≤ 0x200a) || c.val == 0x2028 || c.val == 0x2029 ||
    c.val == 0x202f || c.val == 0x205f || c.val == 0x3000 || c.val == 0xfeff

/-- A letter of the Latin alphabet in lower case, every other character unchanged. -/
def lowerAscii (c : Char) : Char :=
  if 'A' ≤ c ∧ c ≤ 'Z' then Char.ofNat (c.toNat + 32) else c

/-- The lower case of a character, as far as it shows Latin letters: beside the capitals these are
    the Kelvin sign and the capital I with a dot. -/
def lowerCase (c : Char) : List Char :=
  if c = '\u212a' then ['k'] else if c = '\u0130' then ['i', '\u0307'] else [lowerAscii c]

/-- `s.toLowerCase()`, exact where the result is compared with words of Latin letters. -/
def toLowerCase (s : String) : String := String.ofList (s.toList.flatMap lowerCase)

def trimStart (cs : List Char) : List Char := cs.dropWhile isSpace

def trimChars (cs : List Char) : List Char := (trimStart (trimStart cs).reverse).reverse

def trim (s : String) : String := String.ofList (trimChars s.toList)

/-- `sub` occurs at the start of the text, characters compared by `eq`. -/
def startsWithBy (eq : Char → Char → Bool) : List Char → List Char → Bool
  | [], _ => true
  | _ :: _, [] => false
  | p :: ps, c :: cs => eq p c && startsWithBy eq ps cs

/-- `sub` occurs somewhere in the text, characters compared by `eq`. -/
def includesBy (eq : Char → Char → Bool) (sub : List Char) : List Char → Bool
  | [] => startsWithBy eq sub []
  | c :: cs => startsWithBy eq sub (c :: cs) || includesBy eq sub cs

def includes (s sub : String) : Bool := includesBy (· == ·) sub.toList s.toList

/-- `/sub/i.test(s)` for a pattern without metacharacters. -/
def testIgnoreCase (sub s : String) : Bool :=
  includesBy (fun p c => lowerAscii p == lowerAscii c) sub.toList s.toList

/-- Removes every occurrence of `sub`, left to right; `skip` characters are still owed to the
    occurrence found last. -/
def removeAllBy (eq : Char → Char → Bool) (sub : List Char) : Nat → List Char → List Char
  | _, [] => []
  | 0, c :: cs =>
    if startsWithBy eq sub (c :: cs) then removeAllBy eq sub (sub.length - 1) cs
    else c :: removeAllBy eq sub 0 cs
  | skip + 1, _ :: cs => removeAllBy eq sub skip cs

/-- `s.replace(/sub/g, "")` for a pattern without metacharacters. -/
def removeAll (sub s : List Char) : List Char := removeAllBy (· == ·) sub 0 s

/-- `s.replace(/sub/gi, "")` for a pattern without metacharacters. -/
def removeAllIgnoreCase (sub s : List Char) : List Char :=
  removeAllBy (fun p c => lowerAscii p == lowerAscii c) sub 0 s

/-- `s.split(sep)` for a separator of one character, never empty. -/
def split (sep : Char) : List Char → List (List Char)
  | [] => [[]]
  | c :: cs =>
    if c = sep then [] :: split sep cs
    else match split sep cs with
      | [] => [[c]]
      | l :: ls => (c :: l) :: ls

/-- `xs.join(sep)`. -/
def join (sep : String) : List String → String
  | [] => ""
  | [x] => x
  | x :: y :: xs => x ++ sep ++ join sep (y :: xs)

/-- The number of UTF-16 code units of a character. -/
def codeUnits (c : Char) : Nat := if c.val < 0x10000 then 1 else 2

/-- `s.length`. -/
def length (cs : List Char) : Nat := (cs.map codeUnits).sum

/-- `s.split(/\s+/)`: each run of white space separates once. -/
def splitSpaces : List Char → List (List Char)
  | [] => [[]]
  | c :: cs =>
    if isSpace c then
      if cs.head?.any isSpace then splitSpaces cs else [] :: splitSpaces cs
    else match splitSpaces cs with
      | [] => [[c]]
      | l :: ls => (c :: l) :: ls

/-- `s.slice(0, n)`, which counts code units; a surrogate pair cut in half is dropped. -/
def sliceTo : Nat → List Char → List Char
  | _, [] => []
  | n, c :: cs => if codeUnits c ≤ n then c :: sliceTo (n - codeUnits c) cs else []

/-- `s.indexOf(c)`, with `none` for `-1`. -/
def indexOf (c : Char) (cs : List Char) : Option Nat := cs.findIdx? (· == c)

/-- `s.lastIndexOf(c)`, with `none` for `-1`. -/
def lastIndexOf (c : Char) (cs : List Char) : Option Nat :=
  (cs.reverse.findIdx? (· == c)).map (cs.length - 1 - ·)

/-- `s.slice(start, end)`. -/
def slice (start stop : Nat) (cs : List Char) : List Char := (cs.take stop).drop start

example : trim " \n a b \t" = "a b" := by decide

example : String.ofList (removeAllIgnoreCase "```json".toList "x```JSONy".toList) = "xy" := by
  decide

example : split ',' "a,,b".toList = [['a'], [], ['b']] := by decide

example : splitSpaces " \ta  b ".toList = [[], ['a'], ['b'], []] := by decide

end Js
