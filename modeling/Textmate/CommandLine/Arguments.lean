import Textmate.Text.Split

/-!
# Command line arguments

The arguments of a program are read from left to right at a *level*: that of the program itself, or
that of one of its commands. A level has options, which are flags or take a value, and takes
operands. The value of an option may stand in the same argument or in the next one; options of one
letter may share an argument. Behind the argument `--` there are only operands.

Reading stops at the first fault, and at a request for help or for the version, whichever comes
first.
-/

namespace Textmate.CommandLine

/-- Why the arguments do not make up a call. -/
inductive Stop where
  /-- The arguments are not used as intended. -/
  | usage
  /-- Only information about the program was asked for. -/
  | information
  deriving Repr, DecidableEq

/-- What a text has to be to be the value of an option or an operand. -/
abbrev Check := String → Bool

def anyText : Check := fun _ => true

def isPath : Check := fun text => text ≠ ""

/-- An option. -/
structure OptionSpec where
  /-- The long name, which stands behind two hyphens. -/
  name : String
  /-- The letter behind one hyphen, if there is one. -/
  letter : Option Char
  /-- What the value has to be; a flag has no value. -/
  check : Option Check
  /-- Whether the option may be given several times. -/
  isRepeatable : Bool

/-- A level of a command line. -/
structure Level where
  /-- The options, besides the one that asks for help. -/
  options : List OptionSpec
  /-- What each operand has to be. -/
  operand : Check
  least : Nat
  /-- The greatest number of operands, if there is one. -/
  most : Option Nat
  /-- Whether the version can be asked for. -/
  hasVersion : Bool

/-- What was given at a level. -/
structure Given where
  /-- The options by their long names with their values, in order. The value of a flag is empty. -/
  options : List (String × String)
  operands : List String
  deriving Repr, DecidableEq

namespace Given

def nothing : Given := ⟨[], []⟩

def has (given : Given) (name : String) : Bool :=
  given.options.any (·.1 = name)

def value? (given : Given) (name : String) : Option String :=
  given.options.lookup name

def values (given : Given) (name : String) : List String :=
  (given.options.filter (·.1 = name)).map (·.2)

end Given

namespace Level

/-- What was given, with a further option and its value. -/
def addOption (given : Given) (spec : OptionSpec) (value : String) : Except Stop Given :=
  -- The value is checked when it is read, and not when the command runs.
  if (given.has spec.name && !spec.isRepeatable) || !(spec.check.all fun check => check value) then
    .error .usage
  else .ok { given with options := given.options ++ [(spec.name, value)] }

def addOperand (level : Level) (given : Given) (operand : String) : Except Stop Given :=
  if level.most.any (· ≤ given.operands.length) || !level.operand operand then .error .usage
  else .ok { given with operands := given.operands ++ [operand] }

/-- Whether an argument can only be an option, and no value of the option before it. -/
def isOption (arg : String) : Bool :=
  arg.toList.head? = some '-' && arg ≠ "-"

/-- An option whose value has to be the next argument. -/
abbrev Pending := Option OptionSpec

/-- Reads an argument with a long name. -/
def readLong (level : Level) (given : Given) (arg : List Char) : Except Stop (Given × Pending) :=
  let (name, value) := match Text.splitOnce '=' arg with
    | some (name, value) => (String.ofList name, some (String.ofList value))
    | none => (String.ofList arg, none)
  match level.options.find? (·.name = name) with
  | some spec =>
    match spec.check, value with
    | none, none => (addOption given spec "").map (·, none)
    | none, some _ => .error .usage
    | some _, some value => (addOption given spec value).map (·, none)
    | some _, none => .ok (given, some spec)
  | none =>
    -- Help and version are no options of a level, so they are asked for here.
    if value.isNone && (name = "help" || (name = "version" && level.hasVersion)) then
      .error .information
    else .error .usage

/-- Reads the letters of an argument. -/
def readLetters (level : Level) (given : Given) : List Char → Except Stop (Given × Pending)
  | [] => .ok (given, none)
  | letter :: rest =>
    match level.options.find? (·.letter = some letter) with
    | some spec =>
      -- A flag lets the next letter follow; any other option takes the rest as its value.
      if spec.check.isNone then
        match addOption given spec "" with
        | .error stop => .error stop
        | .ok given => readLetters level given rest
      else match rest with
        | [] => .ok (given, some spec)
        -- An equals sign in front of the value is dropped.
        | '=' :: value => (addOption given spec (String.ofList value)).map (·, none)
        | value => (addOption given spec (String.ofList value)).map (·, none)
    | none =>
      if letter = 'h' || (letter = 'V' && level.hasVersion) then .error .information
      else .error .usage

/-- Reads the options in front of the first operand: what was given, and the remaining arguments,
which start with the first operand or with `--`. -/
def readOptions (level : Level) (given : Given) : Pending → List String →
    Except Stop (Given × List String)
  | none, [] => .ok (given, [])
  -- An option at the end has no value.
  | some _, [] => .error .usage
  | some spec, arg :: args =>
    -- A value that looks like an option is not taken as one.
    if isOption arg then .error .usage
    else match addOption given spec arg with
      | .error stop => .error stop
      | .ok given => readOptions level given none args
  | none, arg :: args =>
    let continueWith (read : Except Stop (Given × Pending)) : Except Stop (Given × List String) :=
      match read with
      | .error stop => .error stop
      | .ok (given, pending) => readOptions level given pending args
    if arg = "--" || !isOption arg then .ok (given, arg :: args)
    else match arg.toList.drop 1 with
      | '-' :: name => continueWith (readLong level given name)
      | letters => continueWith (readLetters level given letters)

/-- Reading options takes no arguments twice, so that reading all of them ends. -/
private theorem length_of_readOptions {level : Level} {given given' : Given} {pending : Pending}
    {args rest : List String} (h : readOptions level given pending args = .ok (given', rest)) :
    rest.length ≤ args.length := by
  fun_induction readOptions level given pending args <;> simp_all <;> grind

/-- Reads options and operands, which may stand between each other. -/
def readAll (level : Level) (given : Given) (args : List String) : Except Stop Given :=
  match h : readOptions level given none args with
  | .error stop => .error stop
  | .ok (given, []) => .ok given
  -- Whatever follows is an operand, even if it looks like an option.
  | .ok (given, "--" :: rest) => rest.foldlM (addOperand level) given
  | .ok (given, operand :: rest) =>
    -- The operand is taken away, so there is less to read.
    have : rest.length < args.length := Nat.lt_of_succ_le (length_of_readOptions h)
    match addOperand level given operand with
    | .error stop => .error stop
    | .ok given => readAll level given rest
termination_by args.length

/-- What is given at a level by all of a list of arguments. -/
def read (level : Level) (args : List String) : Except Stop Given :=
  match readAll level .nothing args with
  | .error stop => .error stop
  | .ok given => if level.least ≤ given.operands.length then .ok given else .error .usage

end Level

end Textmate.CommandLine
