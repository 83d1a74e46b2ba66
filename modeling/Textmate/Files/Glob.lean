import Textmate.Files.Basic

/-!
# Patterns of paths

A pattern of paths is a path in whose names wildcards may stand: `?` for one character, `*` for any
number of characters, and brackets for one character of a set, or for one that is not in the set
when `!` comes first. A name `**` stands for any number of directories, one inside the other. All
names are compared as they are written, those with a dot in front too.

Main statement: a name without wildcards matches itself only (`covers_literal`).
-/

namespace Textmate.Glob

/-- A part of a pattern for names. -/
inductive Wildcard where
  | literal (char : Char)
  /-- Any character. -/
  | any
  /-- Any number of characters. -/
  | run
  /-- A character in one of the ranges, whose ends belong to them. -/
  | oneOf (ranges : List (Char × Char))
  /-- A character in none of the ranges. -/
  | noneOf (ranges : List (Char × Char))
  deriving Repr, DecidableEq

/-- Whether a character is in one of a list of ranges. -/
def inSet (ranges : List (Char × Char)) (c : Char) : Bool :=
  ranges.any fun (first, last) => first ≤ c && c ≤ last

namespace Wildcard

/-- Whether a part can stand for a single character. -/
def admits : Wildcard → Char → Bool
  | literal char, c => char = c
  | any, _ => true
  | run, _ => true
  | oneOf ranges, c => inSet ranges c
  | noneOf ranges, c => !inSet ranges c

/-- Whether a list of parts covers a name. -/
def covers : List Wildcard → List Char → Bool
  | [], cs => cs.isEmpty
  | run :: parts, [] => covers parts []
  -- A run ends in front of the character or takes it.
  | run :: parts, c :: cs => covers parts (c :: cs) || covers (run :: parts) cs
  | _ :: _, [] => false
  | part :: parts, c :: cs => part.admits c && covers parts cs
termination_by parts cs => parts.length + cs.length

/-- The text of a list of parts without wildcards. -/
def text? (parts : List Wildcard) : Option String :=
  (parts.mapM fun part => match part with
    | literal c => some c
    | _ => none).map String.ofList

/-- A name without wildcards matches itself only. -/
theorem covers_literal (name cs : List Char) : covers (name.map literal) cs = true ↔ cs = name := by
  induction name generalizing cs with
  | nil => cases cs <;> simp [covers]
  | cons c name ih =>
    cases cs with
    | nil => simp [covers]
    | cons d cs =>
      simp only [List.map_cons, covers, admits, Bool.and_eq_true, decide_eq_true_eq, ih,
        List.cons.injEq]
      exact and_congr_left fun _ => eq_comm

end Wildcard

/-- The ranges that the text between two brackets stands for: two characters with a hyphen between
them are the ends of a range, and any other character is a range by itself. -/
def rangesOf : List Char → List (Char × Char)
  -- A hyphen at either end of the text stands for itself.
  | first :: '-' :: last :: rest => (first, last) :: rangesOf rest
  | c :: rest => (c, c) :: rangesOf rest
  | [] => []

/-- The set at the start of a text behind an opening bracket, and what follows it. The first
character of a set may be a closing bracket. -/
def readSet? : List Char → Option (Wildcard × List Char)
  | '!' :: c :: cs =>
    (Text.splitOnce ']' cs).map fun (members, rest) => (.noneOf (rangesOf (c :: members)), rest)
  | c :: cs =>
    if c = '!' then none
    else (Text.splitOnce ']' cs).map fun (members, rest) => (.oneOf (rangesOf (c :: members)), rest)
  | [] => none

/-- Reading a set takes characters, so that reading a pattern ends. -/
theorem length_of_readSet? {cs rest : List Char} {part : Wildcard}
    (h : readSet? cs = some (part, rest)) : rest.length < cs.length := by
  -- What stands behind the closing bracket is shorter.
  have split {cs before after : List Char} (h : Text.splitOnce ']' cs = some (before, after)) :
      after.length < cs.length := by
    rw [(Text.splitOnce_eq_some_iff.1 h).1]
    simp only [List.length_append, List.length_cons]
    omega
  unfold readSet? at h
  split at h
  · obtain ⟨⟨_, _⟩, hs, he⟩ := Option.map_eq_some_iff.1 h
    have := split hs
    simp_all only [Prod.mk.injEq, List.length_cons]
    omega
  · split at h
    · cases h
    · obtain ⟨⟨_, _⟩, hs, he⟩ := Option.map_eq_some_iff.1 h
      have := split hs
      simp_all only [Prod.mk.injEq, List.length_cons]
      omega
  · cases h

/-- The parts of a pattern for names. Two neighbouring stars and brackets that are not closed are
errors. -/
def readParts? : List Char → Option (List Wildcard)
  | [] => some []
  -- Two stars are a name of their own and stand in no other one.
  | '*' :: '*' :: _ => none
  | '*' :: cs => (readParts? cs).map (.run :: ·)
  | '?' :: cs => (readParts? cs).map (.any :: ·)
  | '[' :: cs =>
    match h : readSet? cs with
    | none => none
    | some (part, rest) =>
      have := length_of_readSet? h
      (readParts? rest).map (part :: ·)
  | c :: cs => (readParts? cs).map (.literal c :: ·)
termination_by cs => cs.length
decreasing_by all_goals simp only [List.length_cons]; omega

/-- A name of a pattern of paths. -/
inductive Segment where
  /-- Any number of directories. -/
  | deep
  /-- A name that the parts cover. -/
  | name (parts : List Wildcard)
  deriving Repr, DecidableEq

def Segment.read? (text : String) : Option Segment :=
  if text = "**" then some .deep else (readParts? text.toList).map .name

/-- The names of a pattern of paths, apart from the root of an absolute one. -/
def segments? (pattern : String) : Option (List Segment) :=
  -- The first piece of an absolute path is empty.
  let texts := match Path.pieces pattern with
    | "" :: rest => rest
    | texts => texts
  texts.mapM Segment.read?

/-- The path in front of the first name with a wildcard: all paths that a pattern stands for lie
there. -/
def fixedPart (pattern : String) : String :=
  let names := (Path.pieces pattern).takeWhile fun name => !name.toList.any "*?[".toList.contains
  let path := Text.joinWith "/" names
  if path = "" then if Path.isAbsolute pattern then "/" else "." else path

/-- Whether a path stands for the working directory, so that it is left out in front of names. -/
def isHere (path : String) : Bool :=
  Path.sortKey path == Path.sortKey "."

/-- The path of a name in a directory. -/
def child (path name : String) : String :=
  if isHere path then name else Path.join path name

/-- All that stands below a directory, each path with its last name. A directory comes before what
is in it, and names come in order. -/
def below (files : Files) (path : String) : List (String × String) :=
  match files.locate path with
  | .error _ => []
  | .ok location =>
    files.entries.filterMap fun (other, _) =>
      match other.drop location.length, other.getLast? with
      | first :: names, some last =>
        -- The directory itself is not below it.
        if other.take location.length = location then
          some (names.foldl Path.join (child path first), last)
        else none
      | _, _ => none

mutual

/-- The paths that are found from a path on. Names that begin with a dot as their pattern does may
also be the directory itself and the one above. -/
def expand (files : Files) : List Segment → String → List String
  | [], path => [path]
  | .deep :: rest, path =>
    if files.isDirectory path then
      (below files path).flatMap fun (other, name) => expandDeep files rest other name
    else []
  | .name parts :: rest, path =>
    match Wildcard.text? parts with
    | some name =>
      let next := child path name
      -- A name without wildcards is not searched for among the names of the directory.
      let found := if name = "." ∨ name = ".." then files.isDirectory path else files.holds next
      if found then expand files rest next else []
    | none =>
      let isCovered (name : String) := Wildcard.covers parts name.toList
      if files.isDirectory path then
        -- The two special names are in no listing of the directory.
        let dots := if parts.head? = some (.literal '.') then ["..", "."].filter isCovered else []
        let names := (files.names path).filter isCovered
        dots.flatMap (fun name => expand files rest (Path.join path name)) ++
          names.flatMap (fun name => expand files rest (child path name))
      else []

/-- The paths that are found from a path on, whose last name comes after any number of
directories. -/
def expandDeep (files : Files) : List Segment → String → String → List String
  -- Any number of directories in the end stands for directories only.
  | [], path, _ => if files.isDirectory path then [path] else []
  | .deep :: rest, path, name => expandDeep files rest path name
  | .name parts :: rest, path, name =>
    if Wildcard.covers parts name.toList then expand files rest path else []

end

/-- The paths that a pattern stands for, or nothing if the text is no pattern. -/
def find? (files : Files) (pattern : String) : Option (List String) :=
  (segments? pattern).map fun segments =>
    expand files segments (if Path.isAbsolute pattern then "/" else ".")

end Textmate.Glob
