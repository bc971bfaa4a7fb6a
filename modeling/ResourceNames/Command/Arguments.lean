import ResourceNames.Command.Directory

/-!
# Command-line arguments

`readArguments` reads the words of a command line. Options may stand before the command or behind
it, where they count first. Wrong arguments are refused without saying what is wrong with them.
-/

namespace ResourceNames

/-- The options, in the order in which they are shown. -/
inductive Flag where
  | crds
  | crdDir
  | authority
  | live
  | namespaceName
  | config
  | logLevel
  | template
  | json
  | help
  | version
  deriving DecidableEq, Repr

namespace Flag

def all : List Flag :=
  [crds, crdDir, authority, live, namespaceName, config, logLevel, template, json, help, version]

def long : Flag → String
  | crds => "crds"
  | crdDir => "crd-dir"
  | authority => "authority"
  | live => "live"
  | namespaceName => "namespace"
  | config => "config"
  | logLevel => "log-level"
  | template => "template"
  | json => "json"
  | help => "help"
  | version => "version"

def short? : Flag → Option Char
  | namespaceName => some 'n'
  | config => some 'c'
  | template => some 't'
  | help => some 'h'
  | version => some 'V'
  | _ => none

def takesValue : Flag → Bool
  | live | json | help | version => false
  | _ => true

/-- Whether an option may stand more than once. -/
def repeatable : Flag → Bool
  | crds | crdDir => true
  | _ => false

/-- Whether the value is a path, which must not be empty. -/
def isPath : Flag → Bool
  | crdDir | config => true
  | _ => false

end Flag

/-- The kinds of commands. -/
inductive CommandName where
  | validate
  | convert
  | types
  deriving DecidableEq, Repr

namespace CommandName

def all : List CommandName := [validate, convert, types]

def text : CommandName → String
  | validate => "validate"
  | convert => "convert"
  | types => "types"

def ofText? (s : String) : Option CommandName := all.find? fun c => c.text = s

/-- Whether an option belongs to the command or, without one, may stand before it. -/
def accepts : Option CommandName → Flag → Bool
  | some .validate, _ => true
  | some _, .template => false
  | some _, _ => true
  | none, .template | none, .json => false
  | none, _ => true

/-- Whether the command works on an input. -/
def takesInput : CommandName → Bool
  | types => false
  | _ => true

end CommandName

/-- What a command line asks for. -/
inductive Request where
  /-- The help text, for a command or in general. -/
  | help (command : Option CommandName)
  | version (command : Option CommandName)
  | run (command : Command) (args : DirectoryArgs)
  deriving DecidableEq, Repr

namespace Arguments

/-- The options and inputs that were read so far on one side of the command. -/
structure Given where
  values : List (Flag × String) := []
  inputs : List String := []
  deriving Repr

namespace Given

def has (g : Given) (f : Flag) : Bool := g.values.any fun e => e.1 = f

/-- The values of an option in their order. -/
def all (g : Given) (f : Flag) : List String :=
  (g.values.filter fun e => e.1 = f).map (·.2)

def value? (g : Given) (f : Flag) : Option String := (g.all f).head?

/-- Takes an option in, unless it stands there already and may not be repeated. -/
def add? (g : Given) (f : Flag) (value : String) : Option Given :=
  if (!f.repeatable && g.has f) || (f.isPath && value = "") then none
  else some { g with values := g.values ++ [(f, value)] }

/-- Whether the options go together. -/
def consistent (g : Given) : Bool := !(g.has .live && (g.has .crds || g.has .crdDir))

end Given

/-- What comes of reading some words. -/
inductive Reading where
  /-- All words were read. -/
  | done (g : Given)
  /-- The name of a command, with the words behind it. -/
  | command (g : Given) (name : String) (rest : List String)
  | help
  | version

/-- What a word is. -/
inductive Word where
  /-- The end of the options. -/
  | dashes
  /-- An option with two dashes and what follows it after `=`. -/
  | long (name : String) (value : Option String)
  /-- Options of one letter each. -/
  | short (letters : List Char)
  | plain (text : String)

def Word.ofText (s : String) : Word :=
  match s.toList with
  | ['-', '-'] => .dashes
  | '-' :: '-' :: rest =>
    match Text.cut? '=' rest with
    | some (name, value) => .long (String.ofList name) (some (String.ofList value))
    | none => .long (String.ofList rest) none
  | '-' :: c :: rest => .short (c :: rest)
  | _ => .plain s

/-- Whether a word can be the value of an option before it. -/
def isValue (s : String) : Bool :=
  match Word.ofText s with
  | .plain _ => true
  | _ => false

def longFlag? (c : Option CommandName) (name : String) : Option Flag :=
  Flag.all.find? fun f => f.long = name && CommandName.accepts c f

def shortFlag? (c : Option CommandName) (letter : Char) : Option Flag :=
  Flag.all.find? fun f => f.short? = some letter && CommandName.accepts c f

/-- The value of an option: after `=`, or the next word. -/
def valueFor? (value : Option String) (rest : List String) : Option (String × List String) :=
  match value, rest with
  | some v, rest => some (v, rest)
  | none, w :: rest => if isValue w then some (w, rest) else none
  | none, [] => none

/-- Options of one letter each; the first that takes a value takes the rest of the word. -/
def readShort? (c : Option CommandName) (g : Given) (rest : List String) :
    List Char → Option ((Given × List String) ⊕ Reading)
  | [] => some (.inl (g, rest))
  | letter :: letters => do
    let f ← shortFlag? c letter
    if f = .help then some (.inr .help)
    else if f = .version then some (.inr .version)
    else if f.takesValue then
      let attached :=
        match letters with
        | [] => none
        | '=' :: cs => some (String.ofList cs)
        | cs => some (String.ofList cs)
      let (v, rest) ← valueFor? attached rest
      some (.inl (← g.add? f v, rest))
    else readShort? c (← g.add? f "") rest letters

/-- The words on one side of the command, `c` on its right. -/
def read? (c : Option CommandName) : Nat → Given → List String → Option Reading
  | _, g, [] => some (.done g)
  | 0, _, _ => none
  | fuel + 1, g, word :: rest =>
    match Word.ofText word with
    | .dashes =>
      match c, rest with
      | none, [] => some (.done g)
      | none, name :: rest => some (.command g name rest)
      | some _, rest => some (.done { g with inputs := g.inputs ++ rest })
    | .long name value => do
      let f ← longFlag? c name
      if f.takesValue then
        let (v, rest) ← valueFor? value rest
        read? c fuel (← g.add? f v) rest
      else if value.isSome then none
      else if f = .help then some .help
      else if f = .version then some .version
      else read? c fuel (← g.add? f "") rest
    | .short letters => do
      match ← readShort? c g rest letters with
      | .inl (g, rest) => read? c fuel g rest
      | .inr reading => some reading
    | .plain text =>
      match c with
      | none => some (.command g text rest)
      | some _ => read? c fuel { g with inputs := g.inputs ++ [text] } rest

/-- The values of an option; behind the command they count first. -/
def valuesOf (before behind : Given) (f : Flag) : List String :=
  if behind.has f then behind.all f else before.all f

/-- The arguments about the directory. -/
def directoryArgs (before behind : Given) : DirectoryArgs where
  patterns := valuesOf before behind .crds
  directories := valuesOf before behind .crdDir
  authority := (valuesOf before behind .authority).head?
  live := before.has .live || behind.has .live
  namespaceName := (valuesOf before behind .namespaceName).head?.getD defaultNamespace
  config := (valuesOf before behind .config).head?

/-- The command with its own options. -/
def commandOf? (c : CommandName) (g : Given) : Option Command :=
  match c, g.inputs with
  | .validate, [input] => some (.validate input (g.value? .template) (g.has .json))
  | .convert, [input] => some (.convert input (g.has .json))
  | .types, [] => some (.types (g.has .json))
  | _, _ => none

/-- What is asked for by the words behind a command's name. -/
def readCommand? (before : Given) (c : CommandName) (rest : List String) : Option Request := do
  match ← read? (some c) rest.length {} rest with
  | .done behind =>
    let command ← commandOf? c behind
    if behind.consistent && before.consistent then
      some (.run command (directoryArgs before behind))
    else none
  | .help => some (.help (some c))
  | .version => some (.version (some c))
  | .command .. => none

end Arguments

/-- What a command line asks for. -/
def readArguments? (words : List String) : Option Request := do
  match ← Arguments.read? none words.length {} words with
  | .done _ => none
  | .help => some (.help none)
  | .version => some (.version none)
  | .command before name rest =>
    match CommandName.ofText? name, name, rest with
    | some c, _, rest => Arguments.readCommand? before c rest
    | none, "help", [] => some (.help none)
    | none, "help", [topic] => (CommandName.ofText? topic).map fun c => .help (some c)
    | none, _, _ => none

end ResourceNames
