import Dialogue.Json.Basic
import Dialogue.Text.Hex

/-!
The compact JSON text of a value.

Nothing is written between tokens. In a string only the quote, the backslash and control characters
are escaped. A binary64 number is written by `Number.text`: with the fewest digits that read back,
positionally while the power of ten of its first digit is from -5 to 15, and otherwise with a signed
exponent; a whole one keeps `.0`.
-/
namespace Dialogue

namespace Number

/-- The least and the greatest power of ten of a first digit that is written positionally. -/
def leastPositional : Int := -5

def greatestPositional : Int := 15

/-- The text of a finite binary64 number in JSON. -/
def realText : Binary64 → String
  | .finite negative m e =>
    let d := Binary64.shortest m e
    let digits :=
      if leastPositional ≤ d.leading ∧ d.leading ≤ greatestPositional then d.positional true
      else d.scientific
    if negative then "-" ++ digits else digits
  | _ => "null"

def text : Number → String
  | .whole i => toString i
  | .real x => realText x

end Number

namespace Json

def escapeChar (c : Char) : String :=
  if c = '"' then "\\\""
  else if c = '\\' then "\\\\"
  else if c = '\n' then "\\n"
  else if c = '\t' then "\\t"
  else if c = '\r' then "\\r"
  else if c = '\x08' then "\\b"
  else if c = '\x0c' then "\\f"
  else if c.toNat < 32 then
    "\\u00" ++ String.ofList [Text.hexDigit (c.toNat / 16), Text.hexDigit (c.toNat % 16)]
  else c.toString

def quote (s : String) : String := "\"" ++ s.foldl (fun acc c => acc ++ escapeChar c) "" ++ "\""

mutual

def text : Json → String
  | .null => "null"
  | .bool b => if b then "true" else "false"
  | .number n => n.text
  | .string s => quote s
  | .array [] => "[]"
  | .array (v :: rest) => "[" ++ text v ++ textItems rest ++ "]"
  | .object [] => "\x7b\x7d"
  | .object ((key, v) :: rest) => "\x7b" ++ quote key ++ ":" ++ text v ++ textFields rest ++ "\x7d"

/-- The remaining items of an array, each after a comma. -/
def textItems : List Json → String
  | [] => ""
  | v :: rest => "," ++ text v ++ textItems rest

/-- The remaining fields of an object, each after a comma. -/
def textFields : List (String × Json) → String
  | [] => ""
  | (key, v) :: rest => "," ++ quote key ++ ":" ++ text v ++ textFields rest

end

end Json

end Dialogue
