import Textmate.CommandLine.Arguments
import Textmate.Config
import Textmate.Text.Digits

/-!
# Commands

The commands of the program with their options, and how a call is read from the arguments. The
options for the configuration, the format and the logging may stand in front of the command and
behind it; behind it they count more.
-/

namespace Textmate.CommandLine

/-- The form of the output. -/
inductive OutputFormat where
  | text
  | json
  deriving Repr, DecidableEq

/-- A command with its arguments. -/
inductive Command where
  /-- Writes the configuration to start with. -/
  | init (overwrite : Bool)
  /-- Loads all that a scope depends on. -/
  | resolve (scope : String) (directories injections : List String)
  /-- Lists the dependencies of the grammar in a file. -/
  | scan (file : String) (rule : Option String)
  /-- Packs attributes into a metadata word. -/
  | pack (language : Nat) (tokenType fontStyle : String) (foreground background : Nat)
  /-- Shows the attributes of a metadata word. -/
  | unpack (word : String)
  /-- Shows the metadata word of a path of scopes. -/
  | style (scopes : List String) (language : Option Nat) (theme : Option String)
  /-- Lists the colors of a theme. -/
  | colors (theme colorMap : Option String)
  deriving Repr, DecidableEq

/-- A call of the program. -/
structure Call where
  config : String
  format : OutputFormat
  command : Command
  deriving Repr, DecidableEq

/-- The number of 32 bits that a text spells, with or without a sign. -/
def number? (text : String) : Option Nat :=
  let (isNegative, digits) := match text.toList with
    | '-' :: digits => (true, digits)
    | '+' :: digits => (false, digits)
    | digits => (false, digits)
  -- Behind a minus sign there is zero only.
  if digits.isEmpty then none
  else (Text.ofDigits? 10 digits).filter fun n => n = 0 || (!isNegative && n < UInt32.size)

def isNumber : Check := fun text => (number? text).isSome

/-- An option that is given at most once with a value. -/
def single (name : String) (letter : Option Char) (check : Check) : OptionSpec :=
  ⟨name, letter, some check, false⟩

def commonOptions : List OptionSpec :=
  [⟨"verbose", some 'v', none, false⟩, single "config" (some 'c') isPath,
    single "format" (some 'f') fun text => text = "text" || text = "json"]

def programLevel : Level := ⟨commonOptions, anyText, 0, none, true⟩

/-- The level of a command with its own options and its operands. -/
def commandLevel (options : List OptionSpec) (operand : Check) (least : Nat) (most : Option Nat) :
    Level :=
  ⟨options ++ commonOptions, operand, least, most, false⟩

/-- The level of a command, and how the command is put together from what is given there. -/
def commandNamed? : String → Option (Level × (Given → Command))
  | "init" =>
    some (commandLevel [⟨"force", none, none, false⟩] anyText 0 (some 0),
      fun given => .init (given.has "force"))
  | "resolve" =>
    some (commandLevel
        [⟨"dir", some 'd', some isPath, true⟩, ⟨"inject", some 'i', some anyText, true⟩]
        anyText 1 (some 1),
      fun given => .resolve (given.operands.headD "") (given.values "dir") (given.values "inject"))
  | "scan" =>
    some (commandLevel [single "rule" (some 'r') anyText] isPath 1 (some 1),
      fun given => .scan (given.operands.headD "") (given.value? "rule"))
  | "pack" =>
    -- The texts of numbers were checked, so the zero stands for an option that is absent.
    let number (given : Given) (name : String) := ((given.value? name).bind number?).getD 0
    some (commandLevel
        [single "language" (some 'l') isNumber, single "token-type" (some 't') anyText,
        single "font-style" (some 's') anyText, single "foreground" none isNumber,
        single "background" none isNumber] anyText 0 (some 0),
      fun given => .pack (number given "language") ((given.value? "token-type").getD "other")
        ((given.value? "font-style").getD "") (number given "foreground")
        (number given "background"))
  | "unpack" =>
    some (commandLevel [] anyText 1 (some 1), fun given => .unpack (given.operands.headD ""))
  | "style" =>
    some (commandLevel [single "language" (some 'l') isNumber, single "theme" (some 't') isPath]
        anyText 1 none,
      fun given => .style given.operands ((given.value? "language").bind number?)
        (given.value? "theme"))
  | "colors" =>
    some (commandLevel [single "color-map" none isPath] isPath 0 (some 1),
      fun given => .colors given.operands.head? (given.value? "color-map"))
  | _ => none

/-- Whether help can be asked for with a list of names: none, or that of a command. -/
def isHelpTopic : List String → Bool
  | [] => true
  | [name] => name = "help" || (commandNamed? name).isSome
  | _ => false

/-- The call that the arguments make up. -/
def Call.ofArguments (args : List String) : Except Stop Call :=
  match programLevel.readOptions .nothing none args with
  | .error stop => .error stop
  -- Without a command nothing is done.
  | .ok (_, []) => .error .usage
  | .ok (_, "help" :: topic) => .error (if isHelpTopic topic then .information else .usage)
  | .ok (outer, name :: rest) =>
    match commandNamed? name with
    | none => .error .usage
    | some (level, command) =>
      match level.read rest with
      | .error stop => .error stop
      | .ok given =>
        -- An option behind the command comes before the same one in front of it.
        let option (key : String) := (given.value? key).or (outer.value? key)
        .ok ⟨(option "config").getD Config.defaultPath,
          if option "format" = some "json" then .json else .text, command given⟩

end Textmate.CommandLine
