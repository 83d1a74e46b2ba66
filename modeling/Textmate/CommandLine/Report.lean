import Textmate.CommandLine.Command
import Textmate.Error
import Textmate.Json.Writer
import Textmate.Terminal.Palette
import Textmate.Terminal.Table

/-!
# Reports

What a command has to say: lines for people, with warnings beside them, and a value for programs.
Which of the two is printed depends on the format of the output.
-/

namespace Textmate.CommandLine

/-- Why a command fails. -/
inductive Problem where
  | library (error : Error)
  /-- A text is no metadata word. -/
  | notWord (problem : Text.NumberProblem)
  /-- A text is no name of a token type. -/
  | unknownType (name : String)
  /-- There are no directories of grammars. -/
  | noDirectories
  /-- An injection is not written as a target and a scope. -/
  | notInjection (text : String)
  /-- A grammar has no rule of a name. -/
  | noRule (scope : ScopeName) (rule : String)
  | noTheme
  /-- There is no scope to style. -/
  | noScopes
  deriving DecidableEq

/-- The wording of the problem. -/
def Problem.message : Problem → String
  | library error => error.message
  | notWord problem => problem.message
  | unknownType name =>
    "unknown token type \x60" ++ name ++ "\x60 (other, comment, string, regex)"
  | noDirectories =>
    "no grammar directories configured (use --dir or \x60tmreg init\x60)"
  | notInjection text => "injection \x60" ++ text ++ "\x60 is not of the form target=scope"
  | noRule scope rule => scope.text ++ " has no repository rule \x60" ++ rule ++ "\x60"
  | noTheme => "no theme given (pass a theme file or set \x60theme\x60 in tmreg.toml)"
  | noScopes => "no scopes given"

/-- A part of a line. -/
inductive Span where
  | plain (text : String)
  /-- A text that plays a part. -/
  | styled (role : TextRole) (text : String)
  deriving Repr, DecidableEq

/-- A line of the output; its parts may hold line breaks. -/
structure Line where
  spans : List Span
  deriving Repr, DecidableEq

namespace Line

/-- The text of a line. -/
def render (colored : Bool) (line : Line) : String :=
  String.join (line.spans.map fun span => match span with
    | .plain text => text
    | .styled role text => role.paint colored text) ++ "\n"

def empty : Line := ⟨[]⟩

def text (text : String) : Line := ⟨[.plain text]⟩

/-- A text that plays a part, behind a sign. -/
def marked (sign : String) (role : TextRole) (text : String) : Line :=
  ⟨[.plain (sign ++ " "), .styled role text]⟩

def header (text : String) : Line := marked "🚀" .header text

def success (text : String) : Line := marked "✅" .success text

def error (text : String) : Line := marked "❌" .error text

def warning (text : String) : Line := marked "⚠️" .warning text

def found (scope : ScopeName) : Line := marked "  ✅" .scope scope.text

def missing (scope : ScopeName) : Line := marked "  ❌" .missing scope.text

def rule (key : String) : Line := marked "  🔗" .rule key

def status (sign label value : String) : Line :=
  ⟨[.plain (sign ++ " "), .styled .label label, .plain (": " ++ value)]⟩

/-- A metadata word, as a number or in digits. -/
def word (text : String) : Line := ⟨[.styled .word text]⟩

/-- The title of a section, with an empty line before it. -/
def title (text : String) : List Line :=
  [empty, ⟨[.plain "━", .styled .header text, .plain "━"]⟩]

end Line

/-- What a command has to say. -/
structure Report where
  lines : List Line
  data : Json
  warnings : List String := []
  remarks : List String := []

/-- The name of a command. -/
def Command.name : Command → String
  | init _ => "init"
  | resolve .. => "resolve"
  | scan .. => "scan"
  | pack .. => "pack"
  | unpack _ => "unpack"
  | style .. => "style"
  | colors .. => "colors"

/-- What is printed, and the code with which the program ends. -/
structure Output where
  /-- The exit code: zero for a success, one for a failed command, two for wrong arguments. -/
  exitCode : Nat
  out : String
  err : String
  deriving Repr, DecidableEq

namespace Output

/-- The output for arguments that make up no call. -/
def ofStop : Stop → Output
  | .usage => ⟨2, "", "usage: [options] init|resolve|scan|pack|unpack|style|colors\n"⟩
  | .information => ⟨0, "A registry of TextMate grammars\n", ""⟩

def lines (colored : Bool) (list : List Line) : String :=
  String.join (list.map (·.render colored))

/-- The output of a command that succeeds. -/
def ofReport (call : Call) (colored : Bool) (report : Report) : Output :=
  let warnings (texts : List String) := lines colored (texts.map Line.warning)
  match call.format with
  | .text =>
    ⟨0, lines colored report.lines, warnings (report.warnings ++ report.remarks)⟩
  | .json =>
    -- Remarks say what the data says as well, so they are left out.
    let envelope := Json.ofMembers
      [("command", .string call.command.name), ("data", report.data), ("ok", .bool true)]
    ⟨0, envelope.pretty ++ "\n", warnings report.warnings⟩

/-- The output of a command that fails. -/
def ofProblem (call : Call) (colored : Bool) (problem : Problem) : Output :=
  match call.format with
  | .text => ⟨1, "", lines colored [.error problem.message]⟩
  | .json =>
    let envelope := Json.ofMembers [("error", .string problem.message), ("ok", .bool false)]
    ⟨1, envelope.pretty ++ "\n", ""⟩

end Output

end Textmate.CommandLine
