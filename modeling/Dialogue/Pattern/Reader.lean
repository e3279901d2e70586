import Dialogue.Pattern.Size
import Dialogue.Text.Category
import Dialogue.Text.Hex

/-!
Reading search patterns.

`Pattern.read?` gives the pattern a text denotes, or nothing if it is none. Besides characters,
classes, groups, alternatives and repetitions the notation has flags (`i` for any case, `m` for
lines, `s` for a dot that also takes line ends, `x` for blanks without meaning, `U` and `R`), named
properties of characters and positions of words. Looking around and referring back to a group are
refused, and so is a pattern that is too large.
-/
namespace Dialogue.Pattern

/-- The flags in force. -/
structure Flags where
  anyCase : Bool
  lines : Bool
  dotAll : Bool
  verbose : Bool
  unicode : Bool
  carriage : Bool

def Flags.initial : Flags := ⟨false, false, false, false, true, false⟩

/-- What reading carries along: the flags, and the names of groups so far. -/
structure Context where
  flags : Flags
  names : List String

/-- A character or a set, as it stands in a class or on its own. -/
inductive Atom where
  | literal (c : Char)
  | set (s : CharSet)
  | place (a : Anchor)

def isWordAscii (c : Char) : Bool := c.isAlphanum || c = '_'

def wordTest (f : Flags) : Char → Bool := if f.unicode then Text.isWord else isWordAscii

def isBlankAscii (c : Char) : Bool := c = ' ' || (9 ≤ c.toNat && c.toNat ≤ 13)

/-- The set of a one-letter class, `d`, `s` or `w`. -/
def shortClass? (f : Flags) (c : Char) : Option CharSet :=
  if c = 'd' then some (.property (if f.unicode then Text.isDecimal else Char.isDigit))
  else if c = 's' then some (.property (if f.unicode then Text.isBlank else isBlankAscii))
  else if c = 'w' then some (.property (wordTest f))
  else none

/-- A character with a meaning of its own, which a backslash takes away. -/
def isMeta (c : Char) : Bool := "\\.+*?()|[]\x7b\x7d^$#&-~".toList.contains c

/-- Characters that may be escaped although they have no meaning of their own. -/
def isEscapable (c : Char) : Bool :=
  isMeta c || (c.toNat < 128 && !c.isAlphanum && c ≠ '<' && c ≠ '>')

/-- Blanks and comments, which have no meaning under the flag `x`. -/
def skipVerbose (f : Flags) : Nat → List Char → List Char
  | 0, cs => cs
  | fuel + 1, cs =>
    if !f.verbose then cs
    else
      match cs with
      | [] => []
      | c :: rest =>
        if Text.isBlank c then skipVerbose f fuel rest
        else if c = '#' then skipVerbose f fuel (rest.dropWhile (· ≠ '\n'))
        else cs

/-- What follows the blanks and comments that do not count. -/
def skip (f : Flags) (cs : List Char) : List Char := skipVerbose f (cs.length + 1) cs

/-- The text up to a character, and what follows it. -/
def upTo (stop : Char) (cs : List Char) : Option (List Char × List Char) :=
  match cs.dropWhile (· ≠ stop) with
  | [] => none
  | _ :: rest => some (cs.takeWhile (· ≠ stop), rest)

/-- The character of hexadecimal digits; there must be some, and they must denote a character. -/
def hexChar? (digits : List Char) : Option Char := do
  if digits.isEmpty then none
  let n ← digits.foldlM (fun n c => (Text.hexValue? c).map fun d => min (n * 16 + d) 0x200000) 0
  if Nat.isValidChar n then some (Char.ofNat n) else none

/-- The rest of a hexadecimal escape with `count` digits, or any number of them in braces. -/
def readHex (count : Nat) : List Char → Option (Atom × List Char)
  | '\x7b' :: rest => do
    let (digits, rest) ← upTo '\x7d' rest
    some (.literal (← hexChar? digits), rest)
  | cs =>
    if cs.length < count then none
    else (hexChar? (cs.take count)).map fun c => (.literal c, cs.drop count)

/-- The property that the text between braces names; `=`, `:` and `!=` may follow the kind of
property. -/
def property? (text : List Char) : Option (Char → Bool) :=
  match upTo '=' text with
  | some (kind, name) =>
    let negated := kind.getLast? = some '!'
    (Text.propertyNamed? (String.ofList name)).map fun f c => f c != negated
  | none =>
    match upTo ':' text with
    | some (_, name) => Text.propertyNamed? (String.ofList name)
    | none => Text.propertyNamed? (String.ofList text)

/-- The rest of a property escape. -/
def readProperty (negated : Bool) : List Char → Option (Atom × List Char)
  | [] => none
  | '\x7b' :: rest => do
    let (name, rest) ← upTo '\x7d' rest
    let (name, inner) := match name with
      | '^' :: more => (more, true)
      | more => (more, false)
    let holds ← property? name
    some (.set (.property fun c => holds c != (negated != inner)), rest)
  | c :: rest => do
    let holds ← Text.propertyNamed? c.toString
    some (.set (.property fun c => holds c != negated), rest)

/-- A word position after `\b`, perhaps named in braces. Braces that name none are left alone. -/
def readBoundary (cs : List Char) : Option (Anchor × List Char) :=
  let plain := some (Anchor.wordBoundary, cs)
  match cs with
  | '\x7b' :: rest =>
    match rest with
    | c :: _ =>
      if c.isAlpha || c = '-' then
        match upTo '\x7d' rest with
        | none => none
        | some (name, rest) =>
          let name := String.ofList name
          if name = "start" then some (.wordStart, rest)
          else if name = "end" then some (.wordEnd, rest)
          else if name = "start-half" then some (.wordStartHalf, rest)
          else if name = "end-half" then some (.wordEndHalf, rest)
          else none
      else plain
    | [] => none
  | _ => plain

/-- What follows a backslash. -/
def readEscape (f : Flags) : List Char → Option (Atom × List Char)
  | [] => none
  | c :: rest =>
    if c.isDigit then none
    else if c = 'x' then readHex 2 rest
    else if c = 'u' then readHex 4 rest
    else if c = 'U' then readHex 8 rest
    else if c = 'p' then readProperty false rest
    else if c = 'P' then readProperty true rest
    else
      match shortClass? f c, shortClass? f c.toLower with
      | some s, _ => some (.set s, rest)
      | none, some s => some (.set (.complement s), rest)
      | none, none =>
        if isEscapable c then some (.literal c, rest)
        else if c = 'a' then some (.literal '\x07', rest)
        else if c = 'f' then some (.literal '\x0c', rest)
        else if c = 't' then some (.literal '\t', rest)
        else if c = 'n' then some (.literal '\n', rest)
        else if c = 'r' then some (.literal '\r', rest)
        else if c = 'v' then some (.literal '\x0b', rest)
        else if c = 'A' then some (.place .textStart, rest)
        else if c = 'z' then some (.place .textEnd, rest)
        else if c = 'b' then (readBoundary rest).map fun (a, rest) => (.place a, rest)
        else if c = 'B' then some (.place .notWordBoundary, rest)
        else if c = '<' then some (.place .wordStart, rest)
        else if c = '>' then some (.place .wordEnd, rest)
        else none

/-- The named classes of ASCII characters. -/
def asciiClass? (name : String) : Option (Char → Bool) :=
  if name = "alnum" then some Char.isAlphanum
  else if name = "alpha" then some Char.isAlpha
  else if name = "ascii" then some fun c => c.toNat < 128
  else if name = "blank" then some fun c => c = ' ' || c = '\t'
  else if name = "cntrl" then some fun c => c.toNat < 32 || c.toNat = 127
  else if name = "digit" then some Char.isDigit
  else if name = "graph" then some fun c => 33 ≤ c.toNat && c.toNat ≤ 126
  else if name = "lower" then some Char.isLower
  else if name = "print" then some fun c => 32 ≤ c.toNat && c.toNat ≤ 126
  else if name = "punct" then
    some fun c => 33 ≤ c.toNat && c.toNat ≤ 126 && !c.isAlphanum
  else if name = "space" then some isBlankAscii
  else if name = "upper" then some Char.isUpper
  else if name = "word" then some isWordAscii
  else if name = "xdigit" then some fun c => (Text.hexValue? c).isSome
  else none

/-- A named ASCII class after the bracket that opens it. -/
def readAsciiClass? : List Char → Option (CharSet × List Char)
  | ':' :: rest => do
    let (negated, rest) := match rest with
      | '^' :: more => (true, more)
      | more => (false, more)
    let (name, rest) ← upTo ':' rest
    match rest with
    | ']' :: rest =>
      let holds ← asciiClass? (String.ofList name)
      some (.property fun c => holds c != negated, rest)
    | _ => none
  | _ => none

/-- One character or escape in a class. -/
def readClassItem (f : Flags) : List Char → Option (Atom × List Char)
  | [] => none
  | '\\' :: rest => readEscape f rest
  | c :: rest => some (.literal c, rest)

/-- An operation between two classes. -/
inductive ClassOp where
  | inter
  | diff
  | symmDiff

def ClassOp.apply : ClassOp → CharSet → CharSet → CharSet
  | .inter, s, t => .inter s t
  | .diff, s, t => .diff s t
  | .symmDiff, s, t => .symmDiff s t

/-- A class under construction: the operation whose right side is being read, with its left side,
and the union read so far. -/
structure ClassDraft where
  left : Option (CharSet × ClassOp)
  union : CharSet

namespace ClassDraft

/-- Adds a set to what is read so far. -/
def add (d : ClassDraft) (s : CharSet) : ClassDraft := { d with union := .union d.union s }

/-- A set in any case, if case does not count. -/
def foldIf (f : Flags) (s : CharSet) : CharSet := if f.anyCase then .folded s else s

/-- The set the draft denotes. -/
def close (f : Flags) (d : ClassDraft) : CharSet :=
  let s := foldIf f d.union
  match d.left with
  | none => s
  | some (left, op) => op.apply left s

/-- Starts the right side of an operation; operations bind to the left. -/
def operate (f : Flags) (op : ClassOp) (d : ClassDraft) : ClassDraft :=
  ⟨some (d.close f, op), .none⟩

end ClassDraft

/-- One item of a class or a range of characters. -/
def readClassRange (f : Flags) (cs : List Char) : Option (CharSet × List Char) := do
  let (first, rest) ← readClassItem f cs
  let rest := skip f rest
  let alone : Option (CharSet × List Char) :=
    match first with
    | .literal c => some (.single c, rest)
    | .set s => some (s, rest)
    | .place _ => none
  match rest with
  | [] => none
  | '-' :: after =>
    match skip f after with
    | ']' :: _ => alone
    | '-' :: _ => alone
    | [] => none
    | after =>
      let (last, rest) ← readClassItem f after
      match first, last with
      | .literal a, .literal b => if a ≤ b then some (.range a.toNat b.toNat, rest) else none
      | _, _ => none
  | _ => alone

/-- The hyphens at the front of a class, which stand for themselves. -/
def readHyphens (f : Flags) : Nat → CharSet → List Char → CharSet × Bool × List Char
  | 0, s, cs => (s, false, cs)
  | fuel + 1, s, cs =>
    match cs with
    | '-' :: rest =>
      let (s, _, rest) := readHyphens f fuel (.union s (.single '-')) (skip f rest)
      (s, true, rest)
    | _ => (s, false, cs)

mutual

/-- A class after its opening bracket. -/
def readClass (f : Flags) : Nat → List Char → Option (CharSet × List Char)
  | 0, _ => none
  | fuel + 1, cs => do
    let cs := skip f cs
    let (negated, cs) := match cs with
      | '^' :: rest => (true, skip f rest)
      | rest => (false, rest)
    let (start, hyphen, cs) := readHyphens f (cs.length + 1) .none cs
    let (start, cs) := match hyphen, cs with
      | false, ']' :: rest => (.union start (.single ']'), skip f rest)
      | _, cs => (start, cs)
    let (s, rest) ← readClassBody f fuel ⟨none, start⟩ cs
    some (if negated then .complement s else s, rest)

/-- The items of a class up to its closing bracket. -/
def readClassBody (f : Flags) : Nat → ClassDraft → List Char → Option (CharSet × List Char)
  | 0, _, _ => none
  | fuel + 1, draft, cs =>
    match skip f cs with
    | [] => none
    | '[' :: rest =>
      match readAsciiClass? rest with
      | some (s, rest) => readClassBody f fuel (draft.add s) rest
      | none => do
        let (s, rest) ← readClass f fuel rest
        readClassBody f fuel (draft.add s) rest
    | ']' :: rest => some (draft.close f, rest)
    | '&' :: '&' :: rest => readClassBody f fuel (draft.operate f .inter) rest
    | '-' :: '-' :: rest => readClassBody f fuel (draft.operate f .diff) rest
    | '~' :: '~' :: rest => readClassBody f fuel (draft.operate f .symmDiff) rest
    | rest => do
      let (s, rest) ← readClassRange f rest
      readClassBody f fuel (draft.add s) rest

end

/-- The flags after a letter, set or cleared. -/
def setFlag (f : Flags) (on : Bool) (c : Char) : Option Flags :=
  if c = 'i' then some { f with anyCase := on }
  else if c = 'm' then some { f with lines := on }
  else if c = 's' then some { f with dotAll := on }
  else if c = 'x' then some { f with verbose := on }
  else if c = 'u' then some { f with unicode := on }
  else if c = 'R' then some { f with carriage := on }
  else if c = 'U' then some f
  else none

/-- Flag letters up to `)` or `:`, which is the first character left. A letter stands once, and a
letter follows the minus. -/
def readFlags (f : Flags) (on : Bool) (seen : List Char) : List Char → Option (Flags × List Char)
  | [] => none
  | ')' :: rest => if seen.isEmpty || seen.head? = some '-' then none else some (f, ')' :: rest)
  | ':' :: rest => if seen.head? = some '-' then none else some (f, ':' :: rest)
  | c :: rest =>
    if seen.contains c then none
    else if c = '-' then readFlags f false (c :: seen) rest
    else do readFlags (← setFlag f on c) on (c :: seen) rest

/-- A character that can begin the name of a group. -/
def isNameStart (c : Char) : Bool := c = '_' || Text.isAlphabetic c

/-- A character that can go on with the name of a group. -/
def isNameChar (c : Char) : Bool :=
  isNameStart c || c = '.' || c = '[' || c = ']' || Text.isAlphanumeric c

/-- The name of a group, which no other group may have. -/
def readName (names : List String) (cs : List Char) : Option (String × List Char) := do
  let (name, rest) ← upTo '>' cs
  match name with
  | [] => none
  | c :: more =>
    let text := String.ofList name
    if isNameStart c && more.all isNameChar && !names.contains text then some (text, rest) else none

/-- A count below `2 ^ 32` in braces, perhaps with blanks around it. -/
def readCount (cs : List Char) : Option (Nat × List Char) :=
  let cs := Text.trimFront cs
  let digits := cs.takeWhile Char.isDigit
  let n := digits.foldl (fun n c => n * 10 + (c.toNat - 48)) 0
  if digits.isEmpty || 4294967296 ≤ n then none
  else some (n, Text.trimFront (cs.dropWhile Char.isDigit))

/-- The bounds of a repetition after its opening brace. -/
def readBounds (f : Flags) (cs : List Char) : Option ((Nat × Option Nat) × List Char) := do
  let (least, rest) ← readCount (skip f cs)
  match rest with
  | '\x7d' :: rest => some ((least, some least), rest)
  | ',' :: rest =>
    match skip f rest with
    | '\x7d' :: rest => some ((least, none), rest)
    | rest =>
      let (most, rest) ← readCount rest
      match rest with
      | '\x7d' :: rest => if least ≤ most then some ((least, some most), rest) else none
      | _ => none
  | _ => none

/-- A repetition sign after a pattern: the bounds it gives. -/
inductive Sign where
  | absent
  | bounds (least : Nat) (most : Option Nat) (rest : List Char)
  | broken

/-- Reads how often an item is to match, as far as there is a sign for it. -/
def readSign (f : Flags) (cs : List Char) : Sign :=
  let lazily (least : Nat) (most : Option Nat) (rest : List Char) : Sign :=
    match skip f rest with
    | '?' :: rest => .bounds least most rest
    | _ => .bounds least most rest
  match cs with
  | '*' :: rest => lazily 0 none rest
  | '+' :: rest => lazily 1 none rest
  | '?' :: rest => lazily 0 (some 1) rest
  | '\x7b' :: rest =>
    match readBounds f rest with
    | some ((least, most), rest) => lazily least most rest
    | none => .broken
  | _ => .absent

/-- Repetition signs after a pattern, one after another. -/
def readSigns (f : Flags) : Nat → Pattern → List Char → Option (Pattern × List Char)
  | 0, _, _ => none
  | fuel + 1, p, cs =>
    match readSign f (skip f cs) with
    | .absent => some (p, cs)
    | .broken => none
    | .bounds least most rest => readSigns f fuel (p.repetition least most) rest

/-- What a dot matches. -/
def dot (f : Flags) : CharSet :=
  if f.dotAll then .complement .none
  else if f.carriage then .complement (.union (.single '\n') (.single '\r'))
  else .complement (.single '\n')

/-- The pattern of an atom under the flags. -/
def ofAtom (f : Flags) : Atom → Pattern
  | .literal c => .one (ClassDraft.foldIf f (.single c))
  | .set s => .one (ClassDraft.foldIf f s)
  | .place a => .anchor a (wordTest f)

mutual

/-- Alternatives up to a closing parenthesis or the end. -/
def readAlternatives : Nat → Context → List Char → Option (Pattern × Context × List Char)
  | 0, _, _ => none
  | fuel + 1, ctx, cs => do
    let (p, ctx, rest) ← readSequence fuel .empty ctx cs
    match rest with
    | '|' :: rest =>
      let (q, ctx, rest) ← readAlternatives fuel ctx rest
      some (.alt p q, ctx, rest)
    | rest => some (p, ctx, rest)

/-- Items one after another, up to `|`, `)` or the end. -/
def readSequence : Nat → Pattern → Context → List Char → Option (Pattern × Context × List Char)
  | 0, _, _, _ => none
  | fuel + 1, acc, ctx, cs =>
    let f := ctx.flags
    let add (p : Pattern) (ctx : Context) (rest : List Char) := do
      let (p, rest) ← readSigns f (rest.length + 1) p rest
      readSequence fuel (.seq acc p) ctx rest
    match skip f cs with
    | [] => some (acc, ctx, [])
    | '|' :: rest => some (acc, ctx, '|' :: rest)
    | ')' :: rest => some (acc, ctx, ')' :: rest)
    | '(' :: rest =>
      let group (inner : Context) (rest : List Char) := do
        let (p, after, rest) ← readAlternatives fuel inner rest
        match rest with
        | ')' :: rest => add p { ctx with names := after.names } rest
        | _ => none
      match skip f rest with
      | '?' :: '=' :: _ => none
      | '?' :: '!' :: _ => none
      | '?' :: '<' :: '=' :: _ => none
      | '?' :: '<' :: '!' :: _ => none
      | '?' :: 'P' :: '<' :: rest => do
        let (name, rest) ← readName ctx.names rest
        group { ctx with names := name :: ctx.names } rest
      | '?' :: '<' :: rest => do
        let (name, rest) ← readName ctx.names rest
        group { ctx with names := name :: ctx.names } rest
      | '?' :: rest => do
        let (flags, rest) ← readFlags f true [] rest
        match rest with
        | ':' :: rest => group { ctx with flags := flags } rest
        | ')' :: rest =>
          match readSign flags (skip flags rest) with
          | .absent => readSequence fuel acc { ctx with flags := flags } rest
          | _ => none
        | _ => none
      | rest => group ctx rest
    | '[' :: rest => do
      let (s, rest) ← readClass f (2 * rest.length + 2) rest
      add (.one s) ctx rest
    | '*' :: _ => none
    | '+' :: _ => none
    | '?' :: _ => none
    | '\x7b' :: _ => none
    | '.' :: rest => add (.one (dot f)) ctx rest
    | '^' :: rest =>
      add (.anchor (if f.lines then .lineStart else .textStart) (wordTest f)) ctx rest
    | '$' :: rest => add (.anchor (if f.lines then .lineEnd else .textEnd) (wordTest f)) ctx rest
    | '\\' :: rest => do
      let (atom, rest) ← readEscape f rest
      add (ofAtom f atom) ctx rest
    | c :: rest => add (ofAtom f (.literal c)) ctx rest

end

/-- Reads a whole pattern, unless it is too large. -/
def read? (text : String) : Option Pattern := do
  let cs := text.toList
  let (p, _, rest) ← readAlternatives (2 * cs.length + 2) ⟨.initial, []⟩ cs
  if rest.isEmpty && !p.isTooLarge then some p else none

end Dialogue.Pattern
