import Textmate.Text.Split

/-!
# Paths

A path is the text of a place in a file tree, with slashes between the names. Two paths are compared
name by name; slashes and dots that do not change the place do not count.
-/

namespace Textmate.Path

def isAbsolute (path : String) : Bool :=
  path.toList.head? == some '/'

/-- A path seen from another one. -/
def join (path other : String) : String :=
  if isAbsolute other || path == "" then other
  else if path.toList.getLast? == some '/' then path ++ other
  else path ++ "/" ++ other

/-- The pieces between the slashes; an absolute path has an empty piece in front. -/
def pieces (path : String) : List String :=
  Text.splitString '/' path

/-- Whether a piece does not change the place. -/
def isIdle (piece : String) : Bool :=
  piece == "" || piece == "."

/-- A list without the idle pieces at its end. -/
def dropIdleEnd (parts : List String) : List String :=
  (parts.reverse.dropWhile isIdle).reverse

/-- The pieces from which the names of a path come, after a head that is kept: the root of an
absolute path, or a leading dot. -/
def headAndBody (path : String) : List String × List String :=
  match pieces path with
  | "" :: rest => ([""], rest)
  | "." :: rest => (["."], rest)
  | parts => ([], parts)

/-- The path without its last name. The root and the empty path have none. -/
def parent? (path : String) : Option String :=
  let (head, body) := headAndBody path
  match (dropIdleEnd body).reverse with
  | [] => if head = ["."] then some "" else none
  | _ :: rest =>
    let body := dropIdleEnd rest.reverse
    some (if head = [""] ∧ body = [] then "/" else Text.joinWith "/" (head ++ body))

/-- The key by which paths are sorted: the root before a leading dot, that before the parent, and
that before a name. -/
def sortKey (path : String) : List (Nat × String) :=
  let (head, body) := headAndBody path
  let first := head.map fun piece => if piece = "" then (0, "") else (1, "")
  first ++ (body.filter (!isIdle ·)).map fun piece => if piece = ".." then (2, "") else (3, piece)

/-- Whether a path comes before another one or has the same place among paths. -/
def sortLE (a b : String) : Bool :=
  go (sortKey a) (sortKey b)
where
  /-- Compares keys from the left; a key comes before its continuations. -/
  go : List (Nat × String) → List (Nat × String) → Bool
    | [], _ => true
    | _ :: _, [] => false
    | (r, s) :: a, (r', s') :: b =>
      if r = r' ∧ s = s' then go a b else r < r' || (r == r' && s < s')

/-- A path as it is found from the directory of a file: an absolute path stays as it is. -/
def besideFile (file path : String) : String :=
  if isAbsolute path then path
  else match parent? file with
    | none | some "" => path
    | some directory => join directory path

end Textmate.Path
