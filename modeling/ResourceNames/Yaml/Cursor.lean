/-!
# Places in a YAML stream

A cursor is the rest of a stream together with its place, in characters, lines and columns.
-/

namespace ResourceNames.Yaml

def isBreak (c : Char) : Bool :=
  c = '\n' || c = '\r' || c = '\u0085' || c = '\u2028' || c = '\u2029'

def isSpaceOrTab (c : Char) : Bool := c = ' ' || c = '\t'

/-- Characters of names of anchors, directives and tag handles. -/
def isWordChar (c : Char) : Bool := c.isAlphanum || c = '_' || c = '-'

/-- The characters that a YAML stream may hold. -/
def isPrintable (c : Char) : Bool :=
  let n := c.toNat
  n == 0x09 || n == 0x0A || n == 0x0D || (0x20 ≤ n && n ≤ 0x7E) || n == 0x85 ||
    (0xA0 ≤ n && n ≤ 0xD7FF) || (0xE000 ≤ n && n ≤ 0xFFFD) || 0x10000 ≤ n

/-- A place in a stream: what is left of it, and how far it is from the start. -/
structure Cursor where
  rest : List Char
  index : Nat := 0
  line : Nat := 0
  column : Nat := 0
  deriving Repr

namespace Cursor

def peek? (c : Cursor) : Option Char := c.rest.head?

/-- Whether the character `n` places ahead is `ch`. -/
def hasAt (c : Cursor) (n : Nat) (ch : Char) : Bool := c.rest[n]? == some ch

/-- Whether the character `n` places ahead is a blank, a line break or the end. -/
def blankOrEndAt (c : Cursor) (n : Nat) : Bool :=
  match c.rest[n]? with
  | none => true
  | some ch => isSpaceOrTab ch || isBreak ch

/-- Past one character that is no line break. -/
def skip (c : Cursor) : Cursor :=
  { c with rest := c.rest.tail, index := c.index + 1, column := c.column + 1 }

def skipMany : Nat → Cursor → Cursor
  | 0, c => c
  | n + 1, c => skipMany n c.skip

/-- The text of the line break in front, in which the one- and two-character breaks of ASCII and
the next-line character count as `\n`, and the place after it. -/
def lineBreak (c : Cursor) : List Char × Cursor :=
  let next (n : Nat) (rest : List Char) : Cursor := ⟨rest, c.index + n, c.line + 1, 0⟩
  match c.rest with
  | '\r' :: '\n' :: rest => (['\n'], next 2 rest)
  | ch :: rest =>
    if ch = '\r' || ch = '\n' || ch = '\u0085' then (['\n'], next 1 rest)
    else if isBreak ch then ([ch], next 1 rest)
    else ([], c)
  | [] => ([], c)

/-- Past the characters in front that satisfy `p`, none of which is a line break. -/
def skipWhile (c : Cursor) (p : Char → Bool) : Cursor :=
  let n := (c.rest.takeWhile fun ch => p ch && !isBreak ch).length
  { c with rest := c.rest.drop n, index := c.index + n, column := c.column + n }

/-- The characters in front that satisfy `p`, none of which is a line break. -/
def takeWhile (c : Cursor) (p : Char → Bool) : List Char :=
  c.rest.takeWhile fun ch => p ch && !isBreak ch

/-- Past a comment, if there is one in front. -/
def skipComment (c : Cursor) : Cursor :=
  if c.peek? = some '#' then c.skipWhile fun _ => true else c

/-- Whether the line starts with three `mark`s and a blank. -/
def atMarker (c : Cursor) (mark : Char) : Bool :=
  c.column = 0 && c.hasAt 0 mark && c.hasAt 1 mark && c.hasAt 2 mark && c.blankOrEndAt 3

/-- Whether a marker between documents is in front. -/
def atDocumentMarker (c : Cursor) : Bool := c.atMarker '-' || c.atMarker '.'

end Cursor

end ResourceNames.Yaml
