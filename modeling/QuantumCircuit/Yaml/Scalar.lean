import QuantumCircuit.Text.Hex
import QuantumCircuit.Yaml.Glyph

/-!
# Scalars

A YAML scalar is written plainly, in quotes of one of two kinds, or as a block of
indented lines.  Plain and quoted scalars may run over several lines: one line break
between words counts as a space and each further one as a line break, and the blanks
around it do not count.  A literal block keeps its line breaks and a folded one joins
lines that do not start with a blank.

Each reader takes the glyphs from the first one of the scalar on and returns the text
with the glyphs that follow it, or nothing where the scalar is faulty.
-/

namespace QuantumCircuit.Yaml

set_option autoImplicit false

/-! ## Gaps between words -/

/-- What stands between two words: blanks, or a first line break and further ones.  An
escaped line break counts as a first one that writes nothing.  The lists are kept in
reverse. -/
structure Gap where
  blanks : List Char
  first : Option (List Char)
  breaks : List Char

namespace Gap

/-- No gap. -/
def none : Gap := ⟨[], .none, []⟩

/-- The gap after an escaped line break. -/
def escaped : Gap := ⟨[], some [], []⟩

/-- Whether nothing stands between the words. -/
def isEmpty (gap : Gap) : Bool := gap.blanks.isEmpty && gap.first.isNone

/-- Blanks next to a line break do not count. -/
def push (gap : Gap) (g : Glyph) : Gap :=
  match gap.first with
  | .none =>
    if g.isBreak then ⟨[], some [g.char], []⟩ else { gap with blanks := g.char :: gap.blanks }
  | some _ => if g.isBreak then { gap with breaks := g.char :: gap.breaks } else gap

/-- What a gap writes, in reverse. -/
def reversedChars (gap : Gap) : List Char :=
  match gap.first with
  | .none => gap.blanks
  | some ['\n'] => if gap.breaks = [] then [' '] else gap.breaks
  | some first => gap.breaks ++ first

end Gap

/-! ## Plain scalars -/

/-- A plain scalar, whether line breaks follow it, and the glyphs after these. -/
structure PlainScalar where
  text : List Char
  breakAfter : Bool
  rest : List Glyph

/-- Whether a plain scalar ends before a glyph. -/
def endsPlain (inFlow : Bool) (margin : Int) (gap : Gap) (g : Glyph) (rest : List Glyph) : Bool :=
  g.isEnd
    || (!gap.isEmpty
      && (g.char == '#' || startsAnyMarker (g :: rest) || (!inFlow && g.column < margin)))
    || (g.char == ':' && startsWith Glyph.endsWord rest)
    || (inFlow && isOneOf ",[]\x7b\x7d" g.char)

/-- Reads on in a plain scalar; `text` is reversed.  Lines of a block must not start left
of `margin`, and a tab must not stand there. -/
def readPlain? (inFlow : Bool) (margin : Int) (text : List Char) (gap : Gap) :
    List Glyph → Option PlainScalar
  | [] => none
  | g :: rest =>
    if g.isGap then
      if g.char == '\t' && gap.first.isSome && g.column < margin then none
      else readPlain? inFlow margin text (gap.push g) rest
    else if endsPlain inFlow margin gap g rest then
      some ⟨text.reverse, gap.first.isSome, g :: rest⟩
    else if inFlow && g.char == ':'
        && startsWith (fun n => isOneOf ",?[]\x7b\x7d" n.char) rest then
      none
    else readPlain? inFlow margin (g.char :: (gap.reversedChars ++ text)) .none rest

/-! ## Quoted scalars -/

/-- The character written by a backslash and a letter. -/
def unescape? : Char → Option Char
  | '0' => some '\x00'
  | 'a' => some '\x07'
  | 'b' => some '\x08'
  | 't' => some '\t'
  | '\t' => some '\t'
  | 'n' => some '\n'
  | 'v' => some '\x0b'
  | 'f' => some '\x0c'
  | 'r' => some '\r'
  | 'e' => some '\x1b'
  | ' ' => some ' '
  | '"' => some '"'
  | '/' => some '/'
  | '\\' => some '\\'
  | 'N' => some '\u0085'
  | '_' => some '\u00a0'
  | 'L' => some '\u2028'
  | 'P' => some '\u2029'
  | _ => none

/-- The number of hexadecimal digits after an escape. -/
def escapeLength? : Char → Option Nat
  | 'x' => some 2
  | 'u' => some 4
  | 'U' => some 8
  | _ => none

/-- The character with a code, if there is one. -/
def charOfCode? (code : Nat) : Option Char :=
  if code.isValidChar then some (.ofNat code) else none

/-- Where a reader of a quoted scalar stands: between characters, after a quotation mark
that may be doubled, after a backslash, or before the last digits of an escape. -/
inductive QuotedMode where
  | char
  | quote
  | escape
  | digits (remaining code : Nat)

/-- Reads on in a quoted scalar; `text` is reversed.  Only the double quotation mark
has escapes; a single one is written twice. -/
def readQuoted? (double : Bool) (mode : QuotedMode) (text : List Char) (gap : Gap) :
    List Glyph → Option (List Char × List Glyph)
  | [] => none
  | g :: rest =>
    match mode with
    | .quote =>
      if g.char = '\'' then readQuoted? double .char ('\'' :: text) .none rest
      else some (text.reverse, g :: rest)
    | .escape =>
      if g.isBreak then readQuoted? double .char text .escaped rest
      else
        match escapeLength? g.char, unescape? g.char with
        | some n, _ => readQuoted? double (.digits n 0) text .none rest
        | none, some c => readQuoted? double .char (c :: text) .none rest
        | none, none => none
    | .digits remaining code =>
      match hexValue? g.char with
      | none => none
      | some d =>
        if remaining ≤ 1 then
          match charOfCode? (code * 16 + d) with
          | none => none
          | some c => readQuoted? double .char (c :: text) .none rest
        else readQuoted? double (.digits (remaining - 1) (code * 16 + d)) text .none rest
    | .char =>
      if g.isGap then readQuoted? double .char text (gap.push g) rest
      else if g.isEnd || startsAnyMarker (g :: rest) then none
      else
        let text := gap.reversedChars ++ text
        if double then
          if g.char = '"' then some (text.reverse, rest)
          else if g.char = '\\' then readQuoted? double .escape text .none rest
          else readQuoted? double .char (g.char :: text) .none rest
        else if g.char = '\'' then readQuoted? double .quote text .none rest
        else readQuoted? double .char (g.char :: text) .none rest

/-! ## Block scalars -/

/-- What becomes of the line breaks at the end of a block. -/
inductive Chomping where
  | strip
  | clip
  | keep
  deriving DecidableEq

/-- The header of a block: chomping and, if given, the indentation. -/
structure BlockHeader where
  chomping : Chomping
  indentation : Option Nat

/-- Chomping is written as a sign. -/
def chompingOf? (c : Char) : Option Chomping :=
  if c = '+' then some .keep else if c = '-' then some .strip else none

/-- An indentation is written as one digit other than zero. -/
def indentationOf? (c : Char) : Option Nat :=
  if '1' ≤ c ∧ c ≤ '9' then some (c.toNat - '0'.toNat) else none

/-- Reads the two indicators of a header, which come in any order. -/
def readBlockHeader : List Glyph → BlockHeader × List Glyph
  | [] => (⟨.clip, none⟩, [])
  | g :: rest =>
    match chompingOf? g.char, indentationOf? g.char with
    | some chomping, _ =>
      match rest with
      | [] => (⟨chomping, none⟩, [])
      | d :: rest' =>
        match indentationOf? d.char with
        | some n => (⟨chomping, some n⟩, rest')
        | none => (⟨chomping, none⟩, rest)
    | none, some n =>
      match rest with
      | [] => (⟨.clip, some n⟩, [])
      | d :: rest' =>
        match chompingOf? d.char with
        | some chomping => (⟨chomping, some n⟩, rest')
        | none => (⟨.clip, some n⟩, rest)
    | none, none => (⟨.clip, none⟩, g :: rest)

/-- The rest of a line without blanks and a comment, from what ends the line on. -/
def dropComment (gs : List Glyph) : List Glyph :=
  let gs := gs.dropWhile Glyph.isBlank
  if startsWith (fun g => g.char == '#') gs then gs.dropWhile fun g => !g.endsLine else gs

/-- Cuts glyphs into lines, each with what ends it. -/
def lines : List Glyph → List (List Glyph)
  | [] => []
  | g :: rest =>
    if g.endsLine then [g] :: lines rest
    else
      match lines rest with
      | [] => [[g]]
      | line :: others => (g :: line) :: others

/-- A block while it is being read.  The indentation is that of the first line with text
unless the header gives it; `widest` is the widest of the empty lines before.  The text
and the breaks are reversed. -/
structure Block where
  indentation : Option Nat
  widest : Nat
  text : List Char
  lastBreak : List Char
  breaks : List Char
  afterBlank : Bool

namespace Block

/-- What joins a line to the lines before it, in reverse. -/
def reversedJoin (b : Block) (folded startsBlank : Bool) : List Char :=
  if folded && b.lastBreak == ['\n'] && !b.afterBlank && !startsBlank then
    if b.breaks = [] then [' '] else b.breaks
  else b.breaks ++ b.lastBreak

/-- Reads lines as long as they belong to the block, and returns the other lines. -/
def read? (folded : Bool) (leastIndentation : Nat) (b : Block) :
    List (List Glyph) → Option (Block × List (List Glyph))
  | [] => some (b, [])
  | line :: others =>
    let blanks := line.takeWhile fun g =>
      g.char == ' ' && (b.indentation.all fun n => decide (g.column < n))
    let column := blanks.length
    match line.drop column with
    | [] => some (b, line :: others)
    | g :: rest =>
      if g.isBreak then
        read? folded leastIndentation
          { b with widest := max b.widest column, breaks := g.char :: b.breaks } others
      else if g.char == '\t' && (b.indentation.all fun n => decide (column < n)) then none
      else
        let indentation := b.indentation.getD (max (max b.widest column) leastIndentation)
        if g.isEnd || column ≠ indentation then some (b, line :: others)
        else
          let content := (g :: rest).takeWhile fun g => !g.endsLine
          let ending := (g :: rest).dropWhile fun g => !g.endsLine
          let b : Block :=
            { indentation := some indentation
              widest := b.widest
              text := (content.map (·.char)).reverse ++ (b.reversedJoin folded g.isBlank ++ b.text)
              lastBreak := (ending.filter Glyph.isBreak).map (·.char)
              breaks := []
              afterBlank := g.isBlank }
          if ending.any Glyph.isEnd then some (b, [ending])
          else read? folded leastIndentation b others

/-- The text of a block that has been read. -/
def chars (b : Block) : Chomping → List Char
  | .strip => b.text.reverse
  | .clip => b.text.reverse ++ b.lastBreak
  | .keep => b.text.reverse ++ b.lastBreak ++ b.breaks.reverse

end Block

/-- Reads a block scalar after its indicator; `outer` is the indentation around it, or
minus one. -/
def readBlock? (folded : Bool) (outer : Int) (gs : List Glyph) :
    Option (List Char × List Glyph) :=
  let (header, gs) := readBlockHeader gs
  match dropComment gs with
  | [] => none
  | g :: rest =>
    if !g.endsLine then none
    else
      let indentation := header.indentation.map fun n => (max outer 0).toNat + n
      let body := if g.isEnd then [[g]] else lines rest
      let start : Block := ⟨indentation, 0, [], [], [], false⟩
      (start.read? folded (max (outer + 1) 1).toNat body).map fun (b, others) =>
        (b.chars header.chomping, others.flatten)

end QuantumCircuit.Yaml
