import ResourceNames.Files.FileSystem

/-!
# File patterns

A pattern is matched part by part: `?` stands for a character, `*` for any characters, `[…]` and
`[!…]` for one character of a set or outside of it, and a part `**` for any number of directories.
A leading dot is matched like any other character.
-/

namespace ResourceNames.Files.Glob

/-- One member of a set of characters: a single one is a range of one. -/
structure CharRange where
  low : Char
  high : Char
  deriving DecidableEq, Repr

inductive Token where
  | char (c : Char)
  | anyChar
  | anyText
  | oneOf (set : List CharRange)
  | noneOf (set : List CharRange)
  | anyDirectories
  deriving DecidableEq, Repr

/-- What is wrong with a pattern. -/
inductive Fault where
  /-- More than two asterisks in a row. -/
  | wildcards
  /-- Two asterisks that are not a whole part. -/
  | recursiveWildcards
  /-- A bracket that opens no set. -/
  | range
  deriving DecidableEq, Repr

/-- A fault and where it is, counted in characters. -/
structure PatternError where
  position : Nat
  fault : Fault
  deriving DecidableEq, Repr

namespace PatternError

def message (e : PatternError) : String :=
  let what :=
    match e.fault with
    | .wildcards => "wildcards are either regular \x60*\x60 or recursive \x60**\x60"
    | .recursiveWildcards => "recursive wildcards must form a single path component"
    | .range => "invalid range pattern"
  s!"Pattern syntax error near position {e.position}: " ++ what

end PatternError

/-- The members of a set: `a-z` is a range, all else single characters. -/
def readSet : List Char → List CharRange
  | a :: '-' :: b :: rest => ⟨a, b⟩ :: readSet rest
  | a :: rest => ⟨a, a⟩ :: readSet rest
  | [] => []

/-- The characters of a set, of which there is at least one before the `]`, and what follows. -/
def setBody? : List Char → Option (List Char × List Char)
  | first :: rest => (Text.cut? ']' rest).map fun (body, after) => (first :: body, after)
  | [] => none

/-- Reads tokens; `position` is the number of characters read, `afterSlash` says whether a part
begins here. -/
def readTokens : Nat → (position : Nat) → (afterSlash : Bool) → List Char →
    Except PatternError (List Token)
  | 0, _, _, _ => .ok []
  | _, _, _, [] => .ok []
  | fuel + 1, position, afterSlash, c :: s =>
    if c = '?' then do return .anyChar :: (← readTokens fuel (position + 1) false s)
    else if c = '*' then
      let more := s.takeWhile (· = '*')
      let rest := s.dropWhile (· = '*')
      let position' := position + 1 + more.length
      match more.length with
      | 0 => do return .anyText :: (← readTokens fuel position' false rest)
      | 1 =>
        if afterSlash then
          match rest with
          | [] => .ok [.anyDirectories]
          | '/' :: rest => do
            return .anyDirectories :: (← readTokens fuel (position' + 1) true rest)
          | _ => .error ⟨position', .recursiveWildcards⟩
        else .error ⟨position - 1, .recursiveWildcards⟩
      | _ => .error ⟨position + 2, .wildcards⟩
    else if c = '[' then
      match s with
      | '!' :: s =>
        match setBody? s with
        | some (body, rest) => do
          return .noneOf (readSet body) ::
            (← readTokens fuel (position + body.length + 3) false rest)
        | none => .error ⟨position, .range⟩
      | s =>
        match setBody? s with
        | some (body, rest) => do
          return .oneOf (readSet body) ::
            (← readTokens fuel (position + body.length + 2) false rest)
        | none => .error ⟨position, .range⟩
    else do return .char c :: (← readTokens fuel (position + 1) (c = '/') s)

/-- The tokens of a pattern or of a part of one. -/
def tokens (s : List Char) : Except PatternError (List Token) :=
  readTokens (s.length + 1) 0 true s

def CharRange.holds (r : CharRange) (c : Char) : Bool := r.low ≤ c && c ≤ r.high

/-- The ends of a text, the whole text first. -/
def ends : List Char → List (List Char)
  | [] => [[]]
  | c :: s => (c :: s) :: ends s

/-- Whether the tokens match a whole name. -/
def matchesName : List Token → List Char → Bool
  | [], s => s.isEmpty
  | .anyText :: ts, s => (ends s).any (matchesName ts)
  | .anyDirectories :: ts, s => matchesName ts s
  | _ :: _, [] => false
  | .char d :: ts, c :: s => d = c && matchesName ts s
  | .anyChar :: ts, _ :: s => matchesName ts s
  | .oneOf set :: ts, c :: s => set.any (·.holds c) && matchesName ts s
  | .noneOf set :: ts, c :: s => !set.any (·.holds c) && matchesName ts s

/-- One part of a pattern. -/
abbrev Part := List Token

namespace Part

def isDirectories (p : Part) : Bool := p = [.anyDirectories]

/-- The text of a part without wildcards. -/
def text? : Part → Option (List Char)
  | [] => some []
  | .char c :: ts => (text? ts).map (c :: ·)
  | _ :: _ => none

end Part

/-- A pattern: where it starts, its parts, and whether it asks for a directory. -/
structure Pattern where
  start : String
  parts : List Part
  wantsDirectory : Bool
  deriving Repr

/-- The parts of a pattern's text: those of a path without the root, and without an empty one at
the end. -/
def partTexts (text : String) : List String :=
  let parts := if isAbsolute text then (segments text).tail else segments text
  if parts.getLast? = some "" then parts.dropLast else parts

/-- Reads a pattern as a whole and part by part. -/
def Pattern.parse (text : String) : Except PatternError Pattern := do
  let _ ← tokens text.toList
  let parts ← (partTexts text).mapM fun part => tokens part.toList
  return {
    start := if isAbsolute text then "/" else "."
    parts := if parts.isEmpty then [[]] else parts
    wantsDirectory := text.toList.getLast? = some '/' }

/-! ## Searching a file system -/

/-- The path of an entry of a directory; the working directory is not named. -/
def childPath (place name : String) : String :=
  if components place = [.current] then name else joinPath place name

/-- An entry of a directory. -/
structure Entry where
  path : String
  name : String
  deriving DecidableEq, Repr

/-- The entries of the directory `place`. -/
def entriesIn (fs : FileSystem) (place : String) : List Entry :=
  (fs.list place).map fun name => ⟨childPath place name, name⟩

mutual

/-- The entries at any depth below the node at `place`, each after those below it. -/
def nodeEntries (place : String) : Node → List Entry
  | .file _ => []
  | .directory entries => allEntries place entries

def allEntries (place : String) : List (String × Node) → List Entry
  | [] => []
  | (name, n) :: rest =>
    nodeEntries (childPath place name) n ++ ⟨childPath place name, name⟩ :: allEntries place rest

end

/-- The entries at any depth below `place`. -/
def entriesBelow (fs : FileSystem) (place : String) : List Entry :=
  ((fs.find? place).map (nodeEntries place)).getD []

/-- The paths that the parts lead to from `place`. With `below`, any number of directories may lie
in between; the next part is then always matched with the names of entries. -/
def searchFrom (fs : FileSystem) (wantsDirectory : Bool) :
    (below : Bool) → List Part → (place : String) → List String
  | false, [], place => if !wantsDirectory || fs.isDirectory place then [place] else []
  | true, [], place => ((entriesBelow fs place).map (·.path)).filter fs.isDirectory
  | below, part :: parts, place =>
    let byName (entries : List Entry) : List String :=
      entries.flatMap fun e =>
        if matchesName part e.name.toList then searchFrom fs wantsDirectory false parts e.path
        else []
    if part.isDirectories then searchFrom fs wantsDirectory true parts place
    else if below then byName (entriesBelow fs place)
    else
      match part.text? with
      | some name =>
        let next := childPath place (String.ofList name)
        let isDots := name = ['.'] || name = ['.', '.']
        if (isDots && fs.isDirectory place) || (!isDots && fs.exists? next) then
          searchFrom fs wantsDirectory false parts next
        else []
      | none =>
        let dots :=
          if fs.isDirectory place && part.head? = some (.char '.') then
            [".", ".."].flatMap fun name =>
              if matchesName part name.toList then
                searchFrom fs wantsDirectory false parts (joinPath place name)
              else []
          else []
        byName (entriesIn fs place) ++ dots

/-- The paths that a pattern leads to. -/
def Pattern.search (p : Pattern) (fs : FileSystem) : List String :=
  searchFrom fs p.wantsDirectory false p.parts p.start

/-- The characters that do not stand for themselves in patterns. -/
def specialChars : List Char := ['?', '*', '[', ']']

/-- A text as a pattern that matches just this text. -/
def escape (text : String) : String :=
  String.ofList (text.toList.flatMap fun c => if c ∈ specialChars then ['[', c, ']'] else [c])

end ResourceNames.Files.Glob
