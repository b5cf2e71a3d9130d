import HeaderLint.Config
import HeaderLint.Path

/-!
# Arguments

The command line names a command and gives it options and operands.

* `--name value` and `--name=value` give an option its value.  A value that stands
  by itself must not look like an option.
* `--name` sets a flag, which takes no value, and `-v` is the flag `verbose`.
* `--` ends the options.  Everything after it is an operand.
* Only options that collect values may be given more than once.

Arguments that break a rule, miss an operand or have one too many are rejected, and
so is a value that the option cannot take.
-/

namespace HeaderLint

/-! ## Options -/

/-- How an option is used. -/
inductive OptionUse where
  /-- Present or not. -/
  | flag
  /-- At most one value. -/
  | single
  /-- Any number of values. -/
  | many
deriving DecidableEq, Repr

/-- An option of a command. -/
structure OptionSpec where
  /-- The name after two dashes. -/
  name : String
  /-- How the option is used. -/
  usage : OptionUse
  /-- The letter after one dash, if there is one. -/
  letter : Option Char := none
deriving DecidableEq, Repr

/-- The options and operands that a command was given. -/
structure Given where
  /-- The flags that are set. -/
  flags : List String := []
  /-- The options with their values, in order. -/
  values : List (String × String) := []
  /-- The operands, in order. -/
  operands : List String := []
deriving DecidableEq, Repr

namespace Given

/-- The flag is set. -/
def has (g : Given) (name : String) : Bool := g.flags.contains name

/-- The values of an option, in order. -/
def all (g : Given) (name : String) : List String :=
  g.values.filterMap fun (key, value) => if key = name then some value else none

/-- Set a flag that is not yet set. -/
def setFlag? (g : Given) (name : String) : Option Given :=
  if g.has name then none else some { g with flags := name :: g.flags }

/-- Give an option a value. -/
def setValue? (g : Given) (spec : OptionSpec) (value : String) : Option Given :=
  if spec.usage = .single ∧ g.all spec.name ≠ [] then none
  else some { g with values := g.values ++ [(spec.name, value)] }

/-- Add operands. -/
def addOperands (g : Given) (operands : List String) : Given :=
  { g with operands := g.operands ++ operands }

/-- Set the flags of letters. -/
def setLetters? (specs : List OptionSpec) (g : Given) : List Char → Option Given
  | [] => some g
  | c :: cs =>
    match specs.find? fun spec => spec.letter == some c && spec.usage == .flag with
    | some spec => (g.setFlag? spec.name).bind fun g => setLetters? specs g cs
    | none => none

end Given

/-- An argument by its form. -/
inductive ArgumentForm where
  /-- Two dashes only. -/
  | separator
  /-- Two dashes, a name, and a value if an equals sign follows. -/
  | long (name : String) (value : Option String)
  /-- One dash and letters. -/
  | short (letters : List Char)
  /-- Anything else, a single dash included. -/
  | plain
deriving DecidableEq, Repr

/-- The form of an argument. -/
def ArgumentForm.ofArgument (arg : String) : ArgumentForm :=
  match arg.toList with
  | ['-', '-'] => .separator
  | '-' :: '-' :: cs =>
    let name := cs.takeWhile (· != '=')
    match cs.drop name.length with
    | [] => .long (String.ofList name) none
    | _ :: value => .long (String.ofList name) (some (String.ofList value))
  | '-' :: c :: cs => .short (c :: cs)
  | _ => .plain

/-- Read the arguments of a command. -/
def Given.read? (specs : List OptionSpec) (g : Given) : List String → Option Given
  | [] => some g
  | arg :: args =>
    match ArgumentForm.ofArgument arg with
    | .separator => some (g.addOperands args)
    | .plain => read? specs (g.addOperands [arg]) args
    | .short letters => (g.setLetters? specs letters).bind fun g => read? specs g args
    | .long name value =>
      match specs.find? fun spec => spec.name == name with
      | none => none
      | some spec =>
        match spec.usage, value with
        | .flag, none => (g.setFlag? name).bind fun g => read? specs g args
        | .flag, some _ => none
        | _, some value => (g.setValue? spec value).bind fun g => read? specs g args
        | _, none =>
          match args with
          | [] => none
          | value :: args =>
            if ArgumentForm.ofArgument value = .plain then
              (g.setValue? spec value).bind fun g => read? specs g args
            else none
termination_by args => args.length

/-! ## Values -/

/-- The greatest number that an option takes. -/
def maxNumber : Nat := 0xffffffffffffffff

/-- A number: decimal digits, with a plus sign before them or not. -/
def readNumber? (text : String) : Option Nat :=
  let digits := match text.toList with
    | '+' :: cs => cs
    | cs => cs
  if digits.isEmpty || !digits.all Char.isDigit then none
  else
    let n := digits.foldl (fun n c => n * 10 + (c.toNat - '0'.toNat)) 0
    if n ≤ maxNumber then some n else none

/-- A path, which is not empty. -/
def readPath? (text : String) : Option Path := if text.isEmpty then none else some ⟨text⟩

/-- The value of an option that takes at most one. -/
def Given.single? {α : Type} (g : Given) (name : String) (read : String → Option α) (default : α) :
    Option α :=
  match (g.all name).head? with
  | none => some default
  | some text => read text

/-! ## Commands -/

/-- What the command `check` was asked for. -/
structure CheckRequest where
  /-- The root of the run. -/
  root : Path
  /-- The report is written as data. -/
  json : Bool
  /-- The configuration. -/
  config : Config
  /-- Texts of exclude patterns. -/
  exclude : List String
  /-- Hidden entries are wanted. -/
  includeHidden : Bool
  /-- The greatest depth of the walk. -/
  maxDepth : Option Nat
  /-- Each file is named when it is checked. -/
  verbose : Bool
deriving DecidableEq, Repr

/-- A command. -/
inductive Command where
  /-- Check the files below a root. -/
  | check (request : CheckRequest)
  /-- List the functions of a file. -/
  | functions (file : Path) (json : Bool)
  /-- List the tokens of a file. -/
  | scan (file : Path) (json : Bool)
  /-- Name the partner of a file. -/
  | pair (file : Path) (json : Bool) (subdirs : List String)
  /-- Name the version of the program. -/
  | version
deriving DecidableEq, Repr

namespace Command

/-- The flag that asks for data. -/
def jsonOption : OptionSpec := ⟨"json", .flag, none⟩

/-- The option that names a further directory for pairing. -/
def subdirOption : OptionSpec := ⟨"include-subdir", .many, none⟩

/-- The options of `check`. -/
def checkOptions : List OptionSpec :=
  [jsonOption, ⟨"strictness", .single, none⟩, ⟨"check-format", .flag, none⟩,
   ⟨"no-xref", .flag, none⟩, ⟨"strict-signatures", .flag, none⟩, subdirOption,
   ⟨"exclude", .many, none⟩, ⟨"include-hidden", .flag, none⟩, ⟨"max-depth", .single, none⟩,
   ⟨"verbose", .flag, some 'v'⟩]

/-- The root of a run, which is the working directory if none is given. -/
def root? : List String → Option Path
  | [] => some ⟨"."⟩
  | [text] => readPath? text
  | _ => none

/-- The file of a command, which has to be given. -/
def file? : List String → Option Path
  | [text] => readPath? text
  | _ => none

/-- The command `check` with its arguments. -/
def check? (args : List String) : Option Command := do
  let g ← Given.read? checkOptions {} args
  let root ← root? g.operands
  let strictness ← g.single? "strictness" Strictness.ofName? .standard
  let maxDepth ← g.single? "max-depth" (fun text => (readNumber? text).map some) none
  return .check
    { root := root
      json := g.has "json"
      config :=
        { strictness := strictness
          checkFormat := g.has "check-format"
          crossReference := !g.has "no-xref"
          strictSignatures := g.has "strict-signatures"
          includeSubdirs := g.all "include-subdir" }
      exclude := g.all "exclude"
      includeHidden := g.has "include-hidden"
      maxDepth := maxDepth
      verbose := g.has "verbose" }

/-- The command line as a command, unless it is rejected. -/
def parse? : List String → Option Command
  | [] => none
  | name :: args =>
    if name = "check" then check? args
    else if name = "functions" then do
      let g ← Given.read? [jsonOption] {} args
      return .functions (← file? g.operands) (g.has "json")
    else if name = "scan" then do
      let g ← Given.read? [jsonOption] {} args
      return .scan (← file? g.operands) (g.has "json")
    else if name = "pair" then do
      let g ← Given.read? [jsonOption, subdirOption] {} args
      return .pair (← file? g.operands) (g.has "json") (g.all "include-subdir")
    else
      match ArgumentForm.ofArgument name with
      | .long "version" none => some .version
      | .short ('V' :: _) => some .version
      | _ => none

end Command

end HeaderLint
