import Textmate.Toml.Quoted
import Textmate.Toml.Scalar
import Textmate.Toml.Tree

/-!
# Reading TOML

A text is read line by line into a table under construction. Values are read by recursion on the
number of levels that may still be nested; within one level the text behind a value is shorter than
the text in front of it.
-/

namespace Textmate.Toml

/-- How many levels of arrays and tables may be nested in a value, and how many parts a key may
have. -/
def maxLevels : Nat := 79

/-- Leaves out blanks, line breaks and comments; `inComment` says that the text starts inside a
comment. -/
def skipLines (inComment : Bool) : List Char → List Char
  | [] => []
  | '\n' :: cs => skipLines false cs
  | '\r' :: '\n' :: cs => skipLines false cs
  | c :: cs =>
    if isBlank c || (inComment && isLineChar c) then skipLines inComment cs
    else if c = '#' then skipLines true cs
    else c :: cs

/-- Leaves out blanks, a comment and a line break, if nothing else stands in front of the line break
or of the end of the text. -/
def lineEnd? (cs : List Char) : Option (List Char) :=
  let rest := cs.dropWhile isBlank
  -- A comment ends in front of the line break, which is read next.
  let rest := if rest.head? = some '#' then rest.dropWhile isLineChar else rest
  if rest.isEmpty then some [] else afterLineBreak? rest

/-- Reads a key with at most a number of parts: the parts before the last one, and the last one. -/
def key? : Nat → List Char → Option ((List String × String) × List Char)
  | 0, _ => none
  | parts + 1, cs => do
    let (part, rest) ← simpleKey? (cs.dropWhile isBlank)
    match rest.dropWhile isBlank with
    | '.' :: rest =>
      let ((path, key), rest) ← key? parts rest
      pure ((part :: path, key), rest)
    | rest => pure (([], part), rest)

/-- Reads a key, an equals sign and a value. -/
def entry? (read : List Char → Option (Value × List Char)) (cs : List Char) :
    Option ((List String × String) × Value × List Char) := do
  let (key, rest) ← key? maxLevels cs
  let (value, rest) ← read ((← Text.afterStart? ['='] rest).dropWhile isBlank)
  pure (key, value, rest)

/-- Reads the items of an array and its closing bracket. A comma may stand behind the last item. -/
def items? (read : List Char → Option (Value × List Char)) (cs : List Char) :
    Option (List Value × List Char) :=
  match skipLines false cs with
  | ']' :: rest => some ([], rest)
  | start =>
    match read start with
    | none => none
    | some (item, rest) =>
      match skipLines false rest with
      | ']' :: rest => some ([item], rest)
      | ',' :: rest =>
        -- An item takes characters, so the check never fails; it shows that the reading ends.
        if rest.length < cs.length then
          (items? read rest).map fun (items, rest) => (item :: items, rest)
        else none
      | _ => none
termination_by cs.length

/-- Reads the entries of a table between braces, behind those that were read already, and the
closing brace. No comma may stand behind the last entry. -/
def entries? (read : List Char → Option (Value × List Char)) (nodes : Nodes) (cs : List Char) :
    Option (Nodes × List Char) :=
  match entry? read cs with
  | none => none
  | some ((path, key), value, rest) =>
    match nodes.assign true path key value, rest.dropWhile isBlank with
    | some nodes, '}' :: rest => some (nodes, rest)
    -- No line break may stand between the entries of such a table.
    | some nodes, ',' :: rest =>
      if rest.length < cs.length then entries? read nodes rest else none
    | _, _ => none
termination_by cs.length

/-- Reads a value that nests at most a number of levels. -/
def value? : Nat → List Char → Option (Value × List Char)
  | levels + 1, '[' :: cs =>
    (items? (value? levels) cs).map fun (items, rest) => (.array items, rest)
  | levels + 1, '{' :: cs =>
    match cs.dropWhile isBlank with
    | '}' :: rest => some (.table [], rest)
    | cs =>
      (entries? (value? levels) [] cs).map fun (nodes, rest) =>
        (.table (Node.toEntries nodes), rest)
  -- With no levels left a bracket is read as a word, which fails.
  | _, cs =>
    match cs.head? with
    | some '"' | some '\'' => (anyString? cs).map fun (text, rest) => (.string text, rest)
    | _ => word? cs

/-- A text of which some lines were read. -/
structure Draft where
  /-- The table of the whole text. -/
  nodes : Nodes
  /-- The header under which the next line stands. -/
  header : List String

namespace Draft

/-- Reads a line from its first character that is no blank. -/
def line? (draft : Draft) : List Char → Option (Draft × List Char)
  | '[' :: '[' :: cs => do
    let ((path, key), rest) ← key? maxLevels cs
    let nodes ← draft.nodes.within (Nodes.openItem key) path
    pure (⟨nodes, path ++ [key]⟩, ← lineEnd? (← Text.afterStart? [']', ']'] rest))
  | '[' :: cs => do
    let ((path, key), rest) ← key? maxLevels cs
    let nodes ← draft.nodes.within (Nodes.openTable key) path
    pure (⟨nodes, path ++ [key]⟩, ← lineEnd? (← Text.afterStart? [']'] rest))
  | cs =>
    -- An empty line or a comment changes nothing.
    match lineEnd? cs with
    | some rest => some (draft, rest)
    | none => do
      let ((path, key), value, rest) ← entry? (value? maxLevels) cs
      let nodes ← draft.nodes.within (Nodes.assign true path key value) draft.header
      pure ({ draft with nodes := nodes }, ← lineEnd? rest)

/-- Reads all lines. -/
def lines? (draft : Draft) (cs : List Char) : Option Draft :=
  match cs.dropWhile isBlank with
  | [] => some draft
  | start =>
    match draft.line? start with
    | none => none
    | some (draft, rest) => if rest.length < cs.length then lines? draft rest else none
termination_by cs.length

end Draft

/-- The table that a text stands for. A byte order mark may stand in front. -/
def parse? (text : String) : Option Entries :=
  let cs := match text.toList with
    | '\uFEFF' :: cs => cs
    | cs => cs
  (Draft.lines? ⟨[], []⟩ cs).map fun draft => Node.toEntries draft.nodes

end Textmate.Toml
