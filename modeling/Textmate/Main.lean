import Textmate.CommandLine.Run

/-!
# The program

Collects the files that a call reads, runs the call on them, prints its output, and writes the files
that it changes.
-/

namespace Textmate.CommandLine

/-- The file tree with all that stands at a path. Files that are no texts are left out. -/
partial def collect (files : Files) (path : String) : IO Files := do
  let found ← try some <$> IO.FS.realPath path catch _ => pure none
  match found with
  | none => pure files
  | some place =>
    if ← place.isDir then
      let names := (← place.readDir).toList.map (·.fileName)
      names.foldlM (fun files name => collect files (Path.join path name)) (files.makePath path)
    else
      let files := ((Path.parent? path).filter (· ≠ "")).elim files files.makePath
      try
        let text ← IO.FS.readFile place
        pure ((files.write path text).toOption.getD files)
      catch _ => pure files

/-- The file tree with the directory of a path, if there is one. -/
def collectParent (files : Files) (path : String) : IO Files := do
  match (Path.parent? path).filter (· ≠ "") with
  | none => pure files
  | some parent =>
    let isThere ← try (← IO.FS.realPath parent).isDir catch _ => pure false
    pure (if isThere then files.makePath parent else files)

/-- All that a call reads. -/
def collectInputs (call : Call) : IO Files := do
  let working := (← IO.currentDir).toString
  let root : Files := ⟨[], []⟩
  let files := { root.makePath working with workingDirectory := (Path.pieces working).drop 1 }
  let files ← collect (← collectParent files call.config) call.config
  (call.inputs files).foldlM collect files

/-- Writes the files that changed. -/
def writeChanges (before after : Files) : IO Unit :=
  after.entries.forM fun (location, entry) =>
    match entry with
    | .directory => pure ()
    | .file text =>
      if before.at? location = some entry then pure ()
      else IO.FS.writeFile ("/" ++ Text.joinWith "/" location) text

/-- Whether the terminal shows colors. -/
def hasColors : IO Bool := do
  let isSet (name : String) : IO Bool := return (← IO.getEnv name).isSome
  let forced := ((← IO.getEnv "CLICOLOR_FORCE").getD "0") ≠ "0"
  let allowed := ((← IO.getEnv "CLICOLOR").getD "1") ≠ "0"
  let capable := ((← IO.getEnv "TERM").getD "dumb") ≠ "dumb"
  let terminal ← (← IO.getStdout).isTty
  pure (forced || (allowed && capable && terminal && !(← isSet "NO_COLOR")))

/-- Runs the program. -/
def program (args : List String) : IO UInt32 := do
  let files ← match Call.ofArguments args with
    | .error _ => pure ⟨[], []⟩
    | .ok call => collectInputs call
  let (output, after) := run files (← hasColors) args
  IO.print output.out
  IO.eprint output.err
  writeChanges files after
  pure (UInt32.ofNat output.exitCode)

end Textmate.CommandLine

/-- Inspects grammars, themes and metadata words from the command line. -/
def main (args : List String) : IO UInt32 :=
  Textmate.CommandLine.program args
