/-
The command line program.

It takes a picture of the files that matter, runs on that, prints, and writes the
settings that were made. Starting another program is not in its power: to it no
language server is installed.
-/
import SymbolQuery.Cli.Program

set_option autoImplicit false

namespace SymbolQuery.Cli

/-- The variables that the program looks at. -/
def variableNames : List String :=
  ["XDG_CONFIG_HOME", "HOME", "SYMLENS_ROOT", "SYMLENS_MAX_ROWS", "SYMLENS_SAMPLING_CEILING",
    "SYMLENS_CHILDREN_DEPTH"]

/-- The variables that are set, with their values. -/
def readEnvironment : IO Environment :=
  variableNames.filterMapM fun name => do
    let value ← IO.getEnv name
    return value.map fun v => (name, v)

/-- Adds what stands at a path to a picture. -/
def addToPicture (files : Files) (path : String) : IO Files := do
  let p := System.mkFilePath [path]
  if ← p.isDir then return files.put (Path.resolved path) none
  if ← p.pathExists then
    return files.put (Path.resolved path) (some (← IO.FS.readBinFile p).toList)
  return files

/-- Writes the files that a picture did not have before. -/
def writeNew (before after : Files) : IO Unit :=
  for (names, content) in after.entries do
    match content with
    | some octets =>
      if before.entries.lookup names != some (some octets) then
        IO.FS.createDirAll (Path.ofComponents names.dropLast)
        IO.FS.writeBinFile (Path.ofComponents names) ⟨octets.toArray⟩
    | none => pure ()

/-- Runs the program on the files of this machine. -/
def runHere (arguments : List String) : IO UInt32 := do
  let directory := (← IO.currentDir).toString
  let bare : Surroundings :=
    { directory := directory, files := {}, environment := ← readEnvironment }
  let files ← (bare.paths arguments).foldlM addToPicture {}
  let (report, after) := run { bare with files := files } arguments
  writeNew files after.files
  IO.print report.text
  return report.exitCode.toUInt32

end SymbolQuery.Cli

/-- The program, with the arguments behind its name. -/
def main (arguments : List String) : IO UInt32 := SymbolQuery.Cli.runHere arguments
