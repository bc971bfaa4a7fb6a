import ResourceNames.Json.Parser
import ResourceNames.Yaml.Cursor

/-!
# The text of scalars

Plain, quoted and block scalars may stand on several lines. Reading one gives its text, in which
the line breaks are folded, and the place after it.
-/

namespace ResourceNames.Yaml

/-! ## Blanks between the words of a scalar -/

/-- Blanks between two words: spaces on one line, or line breaks, of which the first may fold. -/
structure Gap where
  spaces : List Char := []
  firstBreak : Option (List Char) := none
  moreBreaks : List Char := []

namespace Gap

/-- What a gap stands for: its spaces, or its line breaks, a single one of which is a space. -/
def folded (g : Gap) : List Char :=
  match g.firstBreak with
  | none => g.spaces
  | some b =>
    if b = ['\n'] then if g.moreBreaks.isEmpty then [' '] else g.moreBreaks
    else b ++ g.moreBreaks

/-- Reads a gap on from what has been read of it. A tab to the left of `tabColumn` on a line that
the gap begins is refused. -/
def read : Nat → (tabColumn : Int) → Gap → Cursor → Option (Gap × Cursor)
  | 0, _, _, _ => none
  | fuel + 1, tabColumn, g, c =>
    match c.peek? with
    | none => some (g, c)
    | some ch =>
      if isSpaceOrTab ch then
        if g.firstBreak.isSome then
          if ch = '\t' ∧ (c.column : Int) < tabColumn then none else read fuel tabColumn g c.skip
        else read fuel tabColumn { g with spaces := g.spaces ++ [ch] } c.skip
      else if isBreak ch then
        let (text, c) := c.lineBreak
        match g.firstBreak with
        | none => read fuel tabColumn { g with spaces := [], firstBreak := some text } c
        | some _ => read fuel tabColumn { g with moreBreaks := g.moreBreaks ++ text } c
      else some (g, c)

end Gap

/-! ## Plain scalars -/

def isFlowIndicator (c : Char) : Bool := c = ',' || c = '[' || c = ']' || c = '\x7b' || c = '\x7d'

/-- The characters of a plain word, in reverse, and the place after it. Inside brackets a colon in
front of an indicator is refused. -/
def plainWord : Nat → (inFlow : Bool) → List Char → Cursor → Option (List Char × Cursor)
  | 0, _, _, _ => none
  | fuel + 1, inFlow, acc, c =>
    if c.blankOrEndAt 0 then some (acc, c)
    else
      match c.peek? with
      | none => some (acc, c)
      | some ch =>
        let next := c.rest[1]?
        if inFlow ∧ ch = ':' ∧ next.any (fun n => isFlowIndicator n || n = '?') then none
        else if (ch = ':' ∧ c.blankOrEndAt 1) ∨ (inFlow ∧ isFlowIndicator ch) then some (acc, c)
        else plainWord fuel inFlow (ch :: acc) c.skip

/-- Reads a plain scalar on: `acc` is its text so far in reverse, `gap` the blanks before the next
word. The last part says whether it ended after a line break. -/
def plainRest : Nat → (inFlow : Bool) → (indent : Int) → List Char → Gap → Cursor →
    Option (List Char × Cursor × Bool)
  | 0, _, _, _, _, _ => none
  | fuel + 1, inFlow, indent, acc, gap, c =>
    let finished := some (acc, c, gap.firstBreak.isSome)
    if c.atDocumentMarker || c.peek? = some '#' then finished
    else do
      let (word, c) ← plainWord (c.rest.length + 1) inFlow [] c
      if word.isEmpty then finished
      else
        let acc := word ++ gap.folded.reverse ++ acc
        if c.rest.isEmpty || !c.blankOrEndAt 0 then some (acc, c, false)
        else
          let (gap, c) ← Gap.read (c.rest.length + 1) indent {} c
          if !inFlow && (c.column : Int) < indent then some (acc, c, gap.firstBreak.isSome)
          else plainRest fuel inFlow indent acc gap c

/-- A plain scalar whose continuation lines are indented by at least `indent`. -/
def plainScalar (inFlow : Bool) (indent : Int) (c : Cursor) :
    Option (String × Cursor × Bool) :=
  (plainRest (c.rest.length + 1) inFlow indent [] {} c).map fun (acc, c, onNewLine) =>
    (String.ofList acc.reverse, c, onNewLine)

/-! ## Quoted scalars -/

/-- A character named by `n` digits to base 16 in front. -/
def hexChar? (n : Nat) (c : Cursor) : Option (Char × Cursor) := do
  let digits := c.rest.take n
  if digits.length < n then none
  let values ← digits.mapM Json.hexDigit?
  let code := values.foldl (fun acc d => acc * 16 + d) 0
  if (0xD800 ≤ code ∧ code ≤ 0xDFFF) ∨ 0x10FFFF < code then none
  else some (Char.ofNat code, c.skipMany n)

/-- The character of an escape, whose backslash has been read. -/
def escapedChar? (c : Cursor) : Option (Char × Cursor) := do
  let e ← c.peek?
  let c := c.skip
  let simple (ch : Char) := some (ch, c)
  if e = '0' then simple '\x00'
  else if e = 'a' then simple '\x07'
  else if e = 'b' then simple '\x08'
  else if e = 't' ∨ e = '\t' then simple '\t'
  else if e = 'n' then simple '\n'
  else if e = 'v' then simple '\x0b'
  else if e = 'f' then simple '\x0c'
  else if e = 'r' then simple '\r'
  else if e = 'e' then simple '\x1b'
  else if e = ' ' ∨ e = '"' ∨ e = '/' ∨ e = '\\' then simple e
  else if e = 'N' then simple '\u0085'
  else if e = '_' then simple '\u00a0'
  else if e = 'L' then simple '\u2028'
  else if e = 'P' then simple '\u2029'
  else if e = 'x' then hexChar? 2 c
  else if e = 'u' then hexChar? 4 c
  else if e = 'U' then hexChar? 8 c
  else none

/-- The characters of a quoted word, in reverse, the place after it, and whether an escaped line
break ended it. -/
def quotedWord : Nat → (quote : Char) → List Char → Cursor → Option (List Char × Cursor × Bool)
  | 0, _, _, _ => none
  | fuel + 1, quote, acc, c =>
    if c.blankOrEndAt 0 then some (acc, c, false)
    else
      match c.peek? with
      | none => some (acc, c, false)
      | some ch =>
        if quote = '\'' ∧ ch = '\'' ∧ c.hasAt 1 '\'' then
          quotedWord fuel quote ('\'' :: acc) c.skip.skip
        else if ch = quote then some (acc, c, false)
        else if quote = '"' ∧ ch = '\\' then
          if c.rest[1]?.any isBreak then some (acc, c.skip.lineBreak.2, true)
          else do
            let (e, c) ← escapedChar? c.skip
            quotedWord fuel quote (e :: acc) c
        else quotedWord fuel quote (ch :: acc) c.skip

/-- Reads a quoted scalar on up to its closing quote; `acc` is its text so far in reverse. -/
def quotedRest : Nat → (quote : Char) → List Char → Cursor → Option (List Char × Cursor)
  | 0, _, _, _ => none
  | fuel + 1, quote, acc, c =>
    if c.atDocumentMarker || c.rest.isEmpty then none
    else do
      let (word, c, escapedBreak) ← quotedWord (c.rest.length + 1) quote [] c
      let acc := word ++ acc
      if c.peek? = some quote then some (acc, c.skip)
      else
        let gap : Gap := if escapedBreak then { firstBreak := some [] } else {}
        let (gap, c) ← Gap.read (c.rest.length + 1) 0 gap c
        quotedRest fuel quote (gap.folded.reverse ++ acc) c

/-- A quoted scalar, whose opening quote is in front. -/
def quotedScalar (quote : Char) (c : Cursor) : Option (String × Cursor) :=
  (quotedRest (c.rest.length + 1) quote [] c.skip).map fun (acc, c) =>
    (String.ofList acc.reverse, c)

/-! ## Block scalars -/

/-- What happens to the line breaks at the end of a block scalar. -/
inductive Chomping where
  | strip
  | clip
  | keep
  deriving DecidableEq

/-- The chomping and the indentation in the head of a block scalar, in either order. -/
def blockHead (c : Cursor) : Option (Chomping × Option Nat × Cursor) :=
  let chomping (c : Cursor) : Option (Chomping × Cursor) :=
    if c.peek? = some '+' then some (.keep, c.skip)
    else if c.peek? = some '-' then some (.strip, c.skip)
    else none
  let digit (c : Cursor) : Option (Option Nat × Cursor) :=
    match c.peek? with
    | some d =>
      if d = '0' then none
      else if d.isDigit then some (some (d.toNat - '0'.toNat), c.skip)
      else some (none, c)
    | none => some (none, c)
  match chomping c with
  | some (how, c) => (digit c).map fun (n, c) => (how, n, c)
  | none => do
    let (n, c) ← digit c
    match n, chomping c with
    | some _, some (how, c) => some (how, n, c)
    | _, _ => some (.clip, n, c)

/-- The empty lines in front and the spaces that indent the next line: the breaks, the widest
indentation seen and the place. Without an indentation all spaces count; a tab among them is
refused. -/
def blockBreaks : Nat → (indent : Option Nat) → (breaks : List Char) → (widest : Nat) → Cursor →
    Option (List Char × Nat × Cursor)
  | 0, _, _, _, _ => none
  | fuel + 1, indent, breaks, widest, c =>
    let spaces := (c.takeWhile (· = ' ')).length
    let wanted :=
      match indent with
      | none => spaces
      | some n => min spaces (n - c.column)
    let c := c.skipMany wanted
    let widest := max widest c.column
    if c.peek? == some '\t' && indent.all (c.column < ·) then none
    else if c.peek?.any isBreak then
      let (text, c) := c.lineBreak
      blockBreaks fuel indent (breaks ++ text) widest c
    else some (breaks, widest, c)

/-- The lines of a block scalar: `acc` is the text so far in reverse, `lastBreak` the break after
the line before, `breaks` those of the empty lines since. Gives the text and both kinds of breaks
at its end. -/
def blockLines : Nat → (literal : Bool) → (indent : Nat) → (acc lastBreak breaks : List Char) →
    (lastBlank : Bool) → Cursor → Option (List Char × List Char × List Char × Cursor)
  | 0, _, _, _, _, _, _, _ => none
  | fuel + 1, literal, indent, acc, lastBreak, breaks, lastBlank, c =>
    if c.column ≠ indent ∨ c.rest.isEmpty then some (acc, lastBreak, breaks, c)
    else do
      let blank := c.peek?.any isSpaceOrTab
      let joint :=
        if !literal && lastBreak = ['\n'] && !lastBlank && !blank then
          if breaks.isEmpty then [' '] else breaks
        else lastBreak ++ breaks
      let line := c.takeWhile fun _ => true
      let c := c.skipWhile fun _ => true
      let (lastBreak, c) := c.lineBreak
      let (breaks, _, c) ← blockBreaks (c.rest.length + 1) (some indent) [] 0 c
      blockLines fuel literal indent (line.reverse ++ joint.reverse ++ acc) lastBreak breaks blank c

/-- A block scalar, whose indicator is in front, inside a block indented by `parent`. -/
def blockScalar (literal : Bool) (parent : Int) (c : Cursor) : Option (String × Cursor) := do
  let (chomping, given, c) ← blockHead c.skip
  let c := (c.skipWhile isSpaceOrTab).skipComment
  if !c.rest.isEmpty && !c.peek?.any isBreak then none
  let c := c.lineBreak.2
  let indent := given.map fun n => (if 0 ≤ parent then parent + n else n).toNat
  let (breaks, widest, c) ← blockBreaks (c.rest.length + 1) indent [] 0 c
  let indent := indent.getD (max widest (max (parent + 1) 1).toNat)
  let (acc, lastBreak, breaks, c) ←
    blockLines (c.rest.length + 1) literal indent [] [] breaks false c
  let tail :=
    match chomping with
    | .strip => []
    | .clip => lastBreak
    | .keep => lastBreak ++ breaks
  some (String.ofList (acc.reverse ++ tail), c)

end ResourceNames.Yaml
