import ResourceNames.Yaml.ScalarText

/-!
# YAML tokens

`Token.ofText?` cuts a stream into tokens. Blocks have no brackets of their own: where indentation
begins or ends a block the tokens say so. A key may only be recognised by the colon behind it, so
the place where one may have begun is kept until the colon or the end of the line decides.
-/

namespace ResourceNames.Yaml

/-- A token of a YAML stream. -/
inductive Token where
  | versionDirective (major minor : Nat)
  | tagDirective (handle lead : String)
  | documentStart
  | documentEnd
  | blockSequenceStart
  | blockMappingStart
  | blockEnd
  | flowSequenceStart
  | flowSequenceEnd
  | flowMappingStart
  | flowMappingEnd
  | blockEntry
  | flowEntry
  | key
  | value
  | alias (name : String)
  | anchor (name : String)
  | tag (handle suffix : String)
  | scalar (text : String) (plain : Bool)
  deriving DecidableEq, Repr

namespace Token

/-- A place where a key may have begun: the number of the token there, and the place. -/
structure KeyStart where
  number : Nat
  required : Bool
  index : Nat
  line : Nat
  column : Nat

/-- How far a stream has been cut: the place, the tokens so far in reverse, the open blocks and the
places where keys may have begun, one for each open bracket and one for the blocks around them. -/
structure Progress where
  cursor : Cursor
  tokens : List Token := []
  count : Nat := 0
  indent : Int := -1
  outer : List Int := []
  keyAllowed : Bool := true
  keyStart : Option KeyStart := none
  outerKeys : List (Option KeyStart) := []

namespace Progress

def inFlow (p : Progress) : Bool := !p.outerKeys.isEmpty

def push (p : Progress) (t : Token) : Progress :=
  { p with tokens := t :: p.tokens, count := p.count + 1 }

/-- Puts a token in front of the one with the given number. -/
def pushAt (p : Progress) (number : Nat) (t : Token) : Progress :=
  let later := p.count - number
  { p with tokens := p.tokens.take later ++ t :: p.tokens.drop later, count := p.count + 1 }

def skip (p : Progress) (n : Nat) : Progress := { p with cursor := p.cursor.skipMany n }

/-- Pushes a token of `n` characters. -/
def pushMark (p : Progress) (n : Nat) (t : Token) : Progress := (p.skip n).push t

/-- Opens a block at `column` if that is further in, with its token at the place of token
`number?` or at the end. -/
def openBlock (p : Progress) (column : Nat) (number? : Option Nat) (t : Token) : Progress :=
  if !p.inFlow && p.indent < column then
    let p := { p with outer := p.indent :: p.outer, indent := column }
    match number? with
    | some n => p.pushAt n t
    | none => p.push t
  else p

/-- Closes the blocks further in than `column`, of at most the given number. -/
def closeBlocks (column : Int) : Nat → Progress → Progress
  | 0, p => p
  | n + 1, p =>
    if !p.inFlow && column < p.indent then
      closeBlocks column n
        { p.push .blockEnd with indent := p.outer.head?.getD (-1), outer := p.outer.tail }
    else p

def closeTo (p : Progress) (column : Int) : Progress := closeBlocks column (p.outer.length + 1) p

/-- Gives up the place where a key may have begun; a key that must be there is missed. -/
def dropKey (p : Progress) : Option Progress :=
  if p.keyStart.any (·.required) then none else some { p with keyStart := none }

/-- Notes that a key may begin here. -/
def noteKey (p : Progress) : Option Progress :=
  if p.keyAllowed then do
    let p ← p.dropKey
    let c := p.cursor
    let required := !p.inFlow && p.indent == (c.column : Int)
    some { p with keyStart := some ⟨p.count, required, c.index, c.line, c.column⟩ }
  else some p

/-- Whether a key that began there can still be one: on one line and not too long ago. -/
def keyStands (p : Progress) (k : KeyStart) : Bool :=
  !(k.line < p.cursor.line || k.index + 1024 < p.cursor.index)

/-- Gives up the places where keys can no longer have begun. -/
def dropStaleKeys (p : Progress) : Option Progress :=
  let lost (k? : Option KeyStart) := k?.any fun k => k.required && !p.keyStands k
  if lost p.keyStart || p.outerKeys.any lost then none
  else
    some { p with
      keyStart := p.keyStart.filter p.keyStands
      outerKeys := p.outerKeys.map fun k? => k?.filter p.keyStands }

/-- Past blanks, comments and line breaks to the next token. -/
def toNextToken : Nat → Progress → Progress
  | 0, p => p
  | fuel + 1, p =>
    let c :=
      if p.cursor.index = 0 ∧ p.cursor.peek? = some '\uFEFF' then p.cursor.skip else p.cursor
    let tabs := p.inFlow || !p.keyAllowed
    let c := (c.skipWhile fun ch => ch = ' ' || (tabs && ch = '\t')).skipComment
    if c.peek?.any isBreak then
      toNextToken fuel
        { p with cursor := c.lineBreak.2, keyAllowed := p.keyAllowed || !p.inFlow }
    else { p with cursor := c }

end Progress

/-! ## Directives, anchors and tags -/

/-- A number of at most nine digits. -/
def versionNumber (c : Cursor) : Option (Nat × Cursor) :=
  let ds := c.takeWhile Char.isDigit
  if ds.isEmpty || 9 < ds.length then none
  else some (Json.digitsValue ds, c.skipMany ds.length)

/-- The characters of one percent-encoded character, decoded from UTF-8. -/
def percentEncoded (c : Cursor) : Option (Char × Cursor) := do
  let octet (c : Cursor) : Option (Nat × Cursor) := do
    if !c.hasAt 0 '%' then none
    let high ← c.rest[1]?.bind Json.hexDigit?
    let low ← c.rest[2]?.bind Json.hexDigit?
    some (high * 16 + low, c.skipMany 3)
  let follow (start : Nat) (n : Nat) (c : Cursor) : Option (Nat × Cursor) :=
    (List.range n).foldlM (fun (acc, c) _ => do
      let (o, c) ← octet c
      if o / 64 = 2 then some (acc * 64 + o % 64, c) else none) (start, c)
  let (first, c) ← octet c
  let (code, c) ←
    if first < 0x80 then some (first, c)
    else if first / 32 = 6 then follow (first % 32) 1 c
    else if first / 16 = 14 then follow (first % 16) 2 c
    else if first / 8 = 30 then follow (first % 8) 3 c
    else none
  some (Char.ofNat code, c)

/-- Characters of the text of a tag; in its verbatim form also commas and brackets. -/
def isTagChar (verbatim : Bool) (c : Char) : Bool :=
  isWordChar c || c ∈ [';', '/', '?', ':', '@', '&', '=', '+', '$', '.', '!', '~', '*', '\'',
    '(', ')'] || (verbatim && c ∈ [',', '[', ']'])

/-- The text of a tag, in reverse, and the place after it. -/
def tagText : Nat → (verbatim : Bool) → List Char → Cursor → Option (List Char × Cursor)
  | 0, _, _, _ => none
  | fuel + 1, verbatim, acc, c =>
    match c.peek? with
    | none => some (acc, c)
    | some ch =>
      if ch = '%' then do
        let (d, c) ← percentEncoded c
        tagText fuel verbatim (d :: acc) c
      else if isTagChar verbatim ch then tagText fuel verbatim (ch :: acc) c.skip
      else some (acc, c)

/-- The text of a tag as a whole. -/
def wholeTagText (verbatim : Bool) (c : Cursor) : Option (String × Cursor) :=
  (tagText (c.rest.length + 1) verbatim [] c).map fun (acc, c) => (String.ofList acc.reverse, c)

/-- What may be a handle: `!`, word characters and perhaps another `!`. -/
def tagHandle (c : Cursor) : Option (String × Cursor) :=
  if c.hasAt 0 '!' then
    let c := c.skip
    let word := c.takeWhile isWordChar
    let c := c.skipMany word.length
    if c.hasAt 0 '!' then some (String.ofList ('!' :: word ++ ['!']), c.skip)
    else some (String.ofList ('!' :: word), c)
  else none

/-- The directive whose `%` is in front. -/
def directive (c : Cursor) : Option (Token × Cursor) := do
  let c := c.skip
  let name := c.takeWhile isWordChar
  let c := c.skipMany name.length
  if name.isEmpty || !c.blankOrEndAt 0 then none
  let (token, c) ←
    if name = "YAML".toList then do
      let (major, c) ← versionNumber (c.skipWhile isSpaceOrTab)
      if !c.hasAt 0 '.' then none
      let (minor, c) ← versionNumber c.skip
      some (Token.versionDirective major minor, c)
    else if name = "TAG".toList then do
      let (handle, c) ← tagHandle (c.skipWhile isSpaceOrTab)
      if handle ≠ "!" && !(2 ≤ handle.length && handle.toList.getLast? == some '!') then none
      if !c.peek?.any isSpaceOrTab then none
      let (lead, c) ← wholeTagText true (c.skipWhile isSpaceOrTab)
      if lead.isEmpty || !c.blankOrEndAt 0 then none
      some (Token.tagDirective handle lead, c)
    else none
  let c := (c.skipWhile isSpaceOrTab).skipComment
  if !c.rest.isEmpty && !c.peek?.any isBreak then none
  some (token, c.lineBreak.2)

/-- The name of an anchor or alias, whose indicator is in front. -/
def anchorName (c : Cursor) : Option (String × Cursor) :=
  let c := c.skip
  let name := c.takeWhile isWordChar
  let c := c.skipMany name.length
  let ends := c.blankOrEndAt 0 || c.peek?.any (· ∈ ['?', ':', ',', ']', '\x7d', '%', '@', '\x60'])
  if name.isEmpty || !ends then none else some (String.ofList name, c)

/-- The tag whose `!` is in front. -/
def readTag (inFlow : Bool) (c : Cursor) : Option (Token × Cursor) := do
  let (token, c) ←
    if c.hasAt 1 '<' then do
      let (text, c) ← wholeTagText true (c.skipMany 2)
      if text.isEmpty || !c.hasAt 0 '>' then none
      some (Token.tag "" text, c.skip)
    else do
      let (handle, after) ← tagHandle c
      if 2 ≤ handle.length && handle.toList.getLast? == some '!' then do
        let (suffix, c) ← wholeTagText false after
        if suffix.isEmpty then none
        some (Token.tag handle suffix, c)
      else do
        let (rest, c) ← wholeTagText false after
        let suffix := String.ofList (handle.toList.drop 1) ++ rest
        some (if suffix.isEmpty then Token.tag "" "!" else Token.tag "!" suffix, c)
  if (inFlow && c.hasAt 0 ',') || c.blankOrEndAt 0 then some (token, c) else none

/-! ## Cutting a stream -/

namespace Progress

/-- Reads an opening bracket. -/
def openFlow (p : Progress) (t : Token) : Option Progress := do
  let p ← p.noteKey
  let p := { p with outerKeys := p.keyStart :: p.outerKeys, keyStart := none, keyAllowed := true }
  some (p.pushMark 1 t)

/-- Reads a closing bracket. -/
def closeFlow (p : Progress) (t : Token) : Option Progress := do
  let p ← p.dropKey
  let p :=
    match p.outerKeys with
    | [] => p
    | k :: ks => { p with keyStart := k, outerKeys := ks }
  some ({ p with keyAllowed := false }.pushMark 1 t)

/-- Reads the mark of a list item in a block. -/
def readBlockEntry (p : Progress) : Option Progress := do
  if !p.inFlow && !p.keyAllowed then none
  let p := p.openBlock p.cursor.column none .blockSequenceStart
  let p ← p.dropKey
  some ({ p with keyAllowed := true }.pushMark 1 .blockEntry)

/-- Reads the mark of a key. -/
def readKey (p : Progress) : Option Progress := do
  if !p.inFlow && !p.keyAllowed then none
  let p := p.openBlock p.cursor.column none .blockMappingStart
  let p ← p.dropKey
  some ({ p with keyAllowed := !p.inFlow }.pushMark 1 .key)

/-- Reads the mark of a value, which may show that a key has begun earlier. -/
def readValue (p : Progress) : Option Progress :=
  match p.keyStart with
  | some k =>
    let p := p.pushAt k.number .key
    let p := p.openBlock k.column (some k.number) .blockMappingStart
    some ({ p with keyStart := none, keyAllowed := false }.pushMark 1 .value)
  | none =>
    if !p.inFlow && !p.keyAllowed then none
    else
      let p := p.openBlock p.cursor.column none .blockMappingStart
      some ({ p with keyAllowed := !p.inFlow }.pushMark 1 .value)

/-- Reads a token that may begin a key. -/
def readContent (p : Progress) (read : Cursor → Option (Token × Cursor)) : Option Progress := do
  let p ← p.noteKey
  let (t, c) ← read p.cursor
  some ({ p with keyAllowed := false, cursor := c }.push t)

def readBlockScalar (p : Progress) (literal : Bool) : Option Progress := do
  let p ← p.dropKey
  let (text, c) ← blockScalar literal p.indent p.cursor
  some ({ p with keyAllowed := true, cursor := c }.push (.scalar text false))

def readPlain (p : Progress) : Option Progress := do
  let p ← p.noteKey
  let (text, c, onNewLine) ← plainScalar p.inFlow (p.indent + 1) p.cursor
  some ({ p with keyAllowed := onNewLine, cursor := c }.push (.scalar text true))

/-- Reads a token that stands outside of all blocks. -/
def readOutside (p : Progress) (read : Cursor → Option (Token × Cursor)) : Option Progress := do
  let p ← (p.closeTo (-1)).dropKey
  let (t, c) ← read p.cursor
  some ({ p with keyAllowed := false, cursor := c }.push t)

/-- Whether a plain scalar may begin with the character in front. -/
def startsPlain (p : Progress) (ch : Char) : Bool :=
  let indicators := ['-', '?', ':', ',', '[', ']', '\x7b', '\x7d', '#', '&', '*', '!', '|', '>',
    '\'', '"', '%', '@', '\x60']
  !(isSpaceOrTab ch || isBreak ch || ch ∈ indicators) ||
    (ch = '-' && !p.cursor.rest[1]?.any isSpaceOrTab) ||
    (!p.inFlow && (ch = '?' || ch = ':') && !p.cursor.blankOrEndAt 1)

/-- Reads the token in front, which begins with `ch`. -/
def readToken (p : Progress) (ch : Char) : Option Progress :=
  let c := p.cursor
  if c.column = 0 ∧ ch = '%' then p.readOutside directive
  else if c.atMarker '-' then p.readOutside fun c => some (.documentStart, c.skipMany 3)
  else if c.atMarker '.' then p.readOutside fun c => some (.documentEnd, c.skipMany 3)
  else if ch = '[' then p.openFlow .flowSequenceStart
  else if ch = '\x7b' then p.openFlow .flowMappingStart
  else if ch = ']' then p.closeFlow .flowSequenceEnd
  else if ch = '\x7d' then p.closeFlow .flowMappingEnd
  else if ch = ',' then do
    let p ← p.dropKey
    some ({ p with keyAllowed := true }.pushMark 1 .flowEntry)
  else if ch = '-' ∧ c.blankOrEndAt 1 then p.readBlockEntry
  else if ch = '?' ∧ (p.inFlow ∨ c.blankOrEndAt 1) then p.readKey
  else if ch = ':' ∧ (p.inFlow ∨ c.blankOrEndAt 1) then p.readValue
  else if ch = '*' then p.readContent fun c => (anchorName c).map fun (n, c) => (.alias n, c)
  else if ch = '&' then p.readContent fun c => (anchorName c).map fun (n, c) => (.anchor n, c)
  else if ch = '!' then p.readContent (readTag p.inFlow)
  else if ch = '|' ∧ !p.inFlow then p.readBlockScalar true
  else if ch = '>' ∧ !p.inFlow then p.readBlockScalar false
  else if ch = '\'' ∨ ch = '"' then
    p.readContent fun c => (quotedScalar ch c).map fun (t, c) => (.scalar t false, c)
  else if p.startsPlain ch then p.readPlain
  else none

/-- Reads tokens up to the end of the stream. -/
def readAll : Nat → Progress → Option Progress
  | 0, _ => none
  | fuel + 1, p => do
    let p ← (p.toNextToken (p.cursor.rest.length + 1)).dropStaleKeys
    let p := p.closeTo p.cursor.column
    match p.cursor.peek? with
    | some ch => do
      let p ← p.readToken ch
      readAll fuel p
    | none => (p.closeTo (-1)).dropKey

end Progress

/-- The tokens of a stream, unless it cannot be cut into tokens. -/
def ofText? (text : String) : Option (List Token) := do
  let chars :=
    match text.toList with
    | '\uFEFF' :: rest => rest
    | cs => cs
  if !chars.all isPrintable then none
  let p ← Progress.readAll (chars.length + 1) { cursor := { rest := chars } }
  some p.tokens.reverse

end Token

end ResourceNames.Yaml
