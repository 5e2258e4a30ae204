import Gamebook.Decimal.Layout
import Gamebook.Json.Basic

namespace Gamebook

namespace Json

def hexDigit (n : Nat) : Char := if n < 10 then Char.ofNat (48 + n) else Char.ofNat (87 + n)

/-- Quotes, backslashes and control characters are escaped, every other character stands for itself. -/
def escape (c : Char) : List Char :=
  match c with
  | '"' => ['\\', '"']
  | '\\' => ['\\', '\\']
  | '\n' => ['\\', 'n']
  | '\r' => ['\\', 'r']
  | '\t' => ['\\', 't']
  | c =>
    if c.toNat = 8 then ['\\', 'b']
    else if c.toNat = 12 then ['\\', 'f']
    else if c.toNat < 32 then ['\\', 'u', '0', '0', hexDigit (c.toNat / 16), hexDigit (c.toNat % 16)]
    else [c]

def quote (s : String) : List Char := '"' :: (s.toList.flatMap escape ++ ['"'])

mutual

/-- What has no written form becomes `null`. -/
def write : Json → List Char
  | flag true => ['t', 'r', 'u', 'e']
  | flag false => ['f', 'a', 'l', 's', 'e']
  | count n => Decimal.numerals n.toNat
  | number x => (savedText? x).getD ['n', 'u', 'l', 'l']
  | text s => quote s
  | array items => '[' :: writeItems items
  | object members => '{' :: writeMembers members
  | null | unreadable => ['n', 'u', 'l', 'l']

def writeItems : List Json → List Char
  | [] => [']']
  | [j] => write j ++ [']']
  | j :: js => write j ++ ',' :: writeItems js

def writeMembers : List (String × Json) → List Char
  | [] => ['}']
  | [(name, j)] => quote name ++ ':' :: write j ++ ['}']
  | (name, j) :: ms => quote name ++ ':' :: write j ++ ',' :: writeMembers ms

end

def toText (j : Json) : String := String.ofList (write j)

end Json

end Gamebook
