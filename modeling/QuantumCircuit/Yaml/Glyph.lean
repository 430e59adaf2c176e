/-!
# Characters with their places

YAML gives meaning to lines and columns, so a text is turned into glyphs first: its
characters, each with the place where it stands: its line, its column in characters and
the number of bytes of the UTF-8 text before it.  A carriage return, a line feed, the two
together and a next-line character all become one line feed; the line and the paragraph
separator are line breaks too but stay what they are.  The last glyph is an end mark,
which is no character of any YAML text, so what follows the last character needs no case
of its own.

Most control characters must not occur in a YAML text; such a text has no glyphs.
-/

namespace QuantumCircuit.Yaml

set_option autoImplicit false

/-- A character with its line, its column in characters and its distance in bytes from the
start. -/
structure Glyph where
  char : Char
  line : Nat
  column : Nat
  offset : Nat

/-- The character of the last glyph. -/
def endMark : Char := '\x00'

/-- The mark that may stand at the start of a line. -/
def byteOrderMark : Char := '\ufeff'

/-! ## Classes of characters -/

/-- The characters of a YAML text. -/
def isAllowed (c : Char) : Bool :=
  c == '\t' || c == '\n' || c == '\r' || (0x20 ≤ c.toNat && c.toNat ≤ 0x7e) || c.toNat == 0x85
    || (0xa0 ≤ c.toNat && c.toNat ≤ 0xd7ff) || (0xe000 ≤ c.toNat && c.toNat ≤ 0xfffd)
    || 0x10000 ≤ c.toNat

/-- Whether a character is one of those of a text. -/
def isOneOf (text : String) (c : Char) : Bool := text.toList.contains c

/-- The line break that a character writes by itself. -/
def lineBreak? (c : Char) : Option Char :=
  if c = '\n' ∨ c = '\r' ∨ c = '\u0085' then some '\n'
  else if c = '\u2028' ∨ c = '\u2029' then some c
  else none

/-- The characters of names of anchors, handles and directives. -/
def isWordChar (c : Char) : Bool := c.isAlphanum || c == '_' || c == '-'

namespace Glyph

/-- A space or a tab. -/
def isBlank (g : Glyph) : Bool := g.char == ' ' || g.char == '\t'

/-- One of the three line breaks that glyphs can have. -/
def isBreak (g : Glyph) : Bool := g.char == '\n' || g.char == '\u2028' || g.char == '\u2029'

/-- The end of the text. -/
def isEnd (g : Glyph) : Bool := g.char == endMark

/-- A blank or a line break. -/
def isGap (g : Glyph) : Bool := g.isBlank || g.isBreak

/-- A line break or the end of the text. -/
def endsLine (g : Glyph) : Bool := g.isBreak || g.isEnd

/-- A blank, a line break or the end of the text. -/
def endsWord (g : Glyph) : Bool := g.isGap || g.isEnd

end Glyph

/-! ## Glyphs of a text -/

/-- The glyphs of a text that starts at the given place. -/
def glyphsFrom (line column offset : Nat) : List Char → List Glyph
  | [] => [⟨endMark, line, column, offset⟩]
  | '\r' :: '\n' :: rest =>
    ⟨'\n', line, column, offset⟩ :: glyphsFrom (line + 1) 0 (offset + 2) rest
  | c :: rest =>
    match lineBreak? c with
    | some b => ⟨b, line, column, offset⟩ :: glyphsFrom (line + 1) 0 (offset + c.utf8Size) rest
    | none => ⟨c, line, column, offset⟩ :: glyphsFrom line (column + 1) (offset + c.utf8Size) rest

/-- **The glyphs of a text**, unless it has a character that YAML does not allow. -/
def glyphs? (text : String) : Option (List Glyph) :=
  let cs := text.toList
  if cs.all isAllowed then some (glyphsFrom 0 0 0 cs) else none

/-! ## Looking ahead -/

/-- Whether the first glyph satisfies a test. -/
def startsWith (test : Glyph → Bool) : List Glyph → Bool
  | [] => false
  | g :: _ => test g

/-- Whether a document marker, three equal characters `c` alone at the start of a line,
comes first. -/
def startsMarker (c : Char) : List Glyph → Bool
  | x :: y :: z :: rest =>
    x.column == 0 && x.char == c && y.char == c && z.char == c && startsWith Glyph.endsWord rest
  | _ => false

/-- Whether the start or the end of a document comes first. -/
def startsAnyMarker (gs : List Glyph) : Bool := startsMarker '-' gs || startsMarker '.' gs

end QuantumCircuit.Yaml
