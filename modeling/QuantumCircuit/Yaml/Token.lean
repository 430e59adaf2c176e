import QuantumCircuit.Yaml.Scalar

/-!
# Tokens that stand for themselves

The tokens of YAML include marks for structure that is shown only by indentation: the
start of a block and its end, and the key of a `key: value` line, which is known to be one
only at the colon.  Finding those is the work of the layout rule.  This module has the
tokens and the readers of the ones that need no layout: directives, anchors, aliases and
tags.
-/

namespace QuantumCircuit.Yaml

set_option autoImplicit false

/-- How a scalar is written. -/
inductive Style where
  | plain
  | quoted
  | literal
  | folded
  deriving DecidableEq

/-- A tag or a part of one, as bytes; they need not be a text. -/
abbrev Tag := List UInt8

/-- The tokens of YAML, those for structure without a character of its own among them. -/
inductive Token where
  | documentStart
  | documentEnd
  | version (major minor : Nat)
  | tagHandle (handle : String) (stem : Tag)
  | blockSequence
  | blockMapping
  | blockEnd
  | openBracket
  | closeBracket
  | openBrace
  | closeBrace
  | comma
  | entry
  | key
  | value
  | anchor (name : String)
  | alias (name : String)
  | tag (handle : String) (suffix : Tag)
  | scalar (style : Style) (text : String)
  deriving DecidableEq

/-! ## Words -/

/-- The glyphs at the front that satisfy a test, as a text, and the others. -/
def readWhile (test : Char → Bool) (gs : List Glyph) : String × List Glyph :=
  (String.ofList ((gs.takeWhile fun g => test g.char).map (·.char)),
    gs.dropWhile fun g => test g.char)

/-- The name of an anchor or alias, which a blank or one of some indicators must follow. -/
def readName? (gs : List Glyph) : Option (String × List Glyph) :=
  let (name, rest) := readWhile isWordChar gs
  if name ≠ "" && startsWith (fun g => g.endsWord || isOneOf "?:,]\x7d%@\x60" g.char) rest then
    some (name, rest)
  else none

/-! ## Tags -/

namespace Tag

/-- A tag that is a text. -/
def ofString (s : String) : Tag := s.toUTF8.data.toList

/-- A zero byte ends a tag. -/
def cut (bytes : List UInt8) : Tag := bytes.takeWhile (· ≠ 0)

end Tag

/-- The characters of a tag; commas and brackets count only in angle brackets and
directives. -/
def isTagChar (inBrackets : Bool) (c : Char) : Bool :=
  isWordChar c || isOneOf ";/?:@&=+$.!~*()'" c || (inBrackets && isOneOf ",[]" c)

/-- How many bytes must follow the first one of a character in UTF-8. -/
def followers? (byte : Nat) : Option Nat :=
  if byte < 0x80 then some 0
  else if byte < 0xc0 then none
  else if byte < 0xe0 then some 1
  else if byte < 0xf0 then some 2
  else if byte < 0xf8 then some 3
  else none

/-- Reads the characters of a tag, with bytes written in hexadecimal after a percent sign.
`bytes` is reversed and `missing` tells how many bytes of a character are still to come.
That they are of the right kind is all that is asked of them. -/
def readTagBytes? (inBrackets : Bool) (missing : Nat) (bytes : List UInt8) :
    List Glyph → Option (List UInt8 × List Glyph)
  | [] => if missing = 0 then some (bytes.reverse, []) else none
  | g :: rest =>
    if g.char = '%' then
      match rest with
      | a :: b :: rest =>
        match hexValue? a.char, hexValue? b.char with
        | some a, some b =>
          let byte := a * 16 + b
          if missing = 0 then
            match followers? byte with
            | some n => readTagBytes? inBrackets n (.ofNat byte :: bytes) rest
            | none => none
          else if 0x80 ≤ byte ∧ byte < 0xc0 then
            readTagBytes? inBrackets (missing - 1) (.ofNat byte :: bytes) rest
          else none
        | _, _ => none
      | _ => none
    else if missing ≠ 0 then none
    else if isTagChar inBrackets g.char then
      readTagBytes? inBrackets 0 (.ofNat g.char.toNat :: bytes) rest
    else some (bytes.reverse, g :: rest)

/-- Reads a part of a tag that is not empty, though it may begin with its end. -/
def readTagPart? (inBrackets : Bool) (gs : List Glyph) : Option (Tag × List Glyph) := do
  let (bytes, rest) ← readTagBytes? inBrackets 0 [] gs
  if bytes = [] then none else return (Tag.cut bytes, rest)

/-- Reads a tag after its exclamation mark: in angle brackets, after a named handle, or
after the mark alone.  A mark with nothing after it is a tag of its own. -/
def readTag? (gs : List Glyph) : Option (Token × List Glyph) :=
  if startsWith (fun g => g.char == '<') gs then do
    let (tag, rest) ← readTagPart? true (gs.drop 1)
    if startsWith (fun g => g.char == '>') rest then return (.tag "" tag, rest.drop 1) else none
  else
    let (word, rest) := readWhile isWordChar gs
    if startsWith (fun g => g.char == '!') rest then do
      let (suffix, rest) ← readTagPart? false (rest.drop 1)
      return (.tag ("!" ++ word ++ "!") suffix, rest)
    else do
      let (bytes, rest) ← readTagBytes? false 0 [] gs
      let suffix := Tag.cut bytes
      return (if suffix = [] then .tag "" (Tag.ofString "!") else .tag "!" suffix, rest)

/-- A tag must stand alone. -/
def readLoneTag? (inFlow : Bool) (gs : List Glyph) : Option (Token × List Glyph) := do
  let (tag, rest) ← readTag? gs
  if startsWith (fun g => g.endsWord || (inFlow && g.char == ',')) rest then return (tag, rest)
  else none

/-! ## Directives -/

/-- A number of at most nine digits. -/
def readVersionNumber? (gs : List Glyph) : Option (Nat × List Glyph) :=
  let (digits, rest) := readWhile Char.isDigit gs
  if digits.length ≤ 9 then digits.toNat?.map (·, rest) else none

/-- Reads the two numbers of a version, with a point between them. -/
def readVersion? (gs : List Glyph) : Option (Token × List Glyph) := do
  let (major, rest) ← readVersionNumber? (gs.dropWhile Glyph.isBlank)
  if startsWith (fun g => g.char == '.') rest then
    let (minor, rest) ← readVersionNumber? (rest.drop 1)
    return (.version major minor, rest)
  else none

/-- Reads a tag handle and what it stands for. -/
def readTagHandle? (gs : List Glyph) : Option (Token × List Glyph) := do
  let gs := gs.dropWhile Glyph.isBlank
  if startsWith (fun g => g.char == '!') gs then
    let (word, rest) := readWhile isWordChar (gs.drop 1)
    let (handle, rest) ←
      if startsWith (fun g => g.char == '!') rest then some ("!" ++ word ++ "!", rest.drop 1)
      else if word = "" then some ("!", rest)
      else none
    if startsWith Glyph.isBlank rest then
      let (stem, rest) ← readTagPart? true (rest.dropWhile Glyph.isBlank)
      if startsWith Glyph.endsWord rest then return (.tagHandle handle stem, rest) else none
    else none
  else none

/-- Reads a directive after its percent sign, with the end of its line. -/
def readDirective? (gs : List Glyph) : Option (Token × List Glyph) := do
  let (name, rest) := readWhile isWordChar gs
  if startsWith Glyph.endsWord rest then
    let (directive, rest) ←
      if name = "YAML" then readVersion? rest
      else if name = "TAG" then readTagHandle? rest
      else none
    match dropComment rest with
    | [] => none
    | g :: rest =>
      if g.isBreak then return (directive, rest)
      else if g.isEnd then return (directive, g :: rest)
      else none
  else none

end QuantumCircuit.Yaml
