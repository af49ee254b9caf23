import GalvoWeld.DryRun.Program

/-!
# Command line

Reads the files that the arguments name, does the dry run on them, prints its output and writes the
files that it has changed.
-/

namespace GalvoWeld.DryRun

/-- Does the path lead to a directory? -/
def isDirectory (path : String) : IO Bool := do
  try
    let _ ← IO.FS.realPath (path ++ "/.")
    return true
  catch _ => return false

/-- The file of a path, if it can be read. -/
def readFile (path : String) : IO (List (String × String)) := do
  try
    let text ← IO.FS.readFile path
    return [(path, text)]
  catch _ => return []

/-- What stands at these paths and on the way to them. -/
def survey (paths : List String) : IO Disk := do
  let (directories, others) ← (paths.flatMap Disk.leadingPaths).partitionM isDirectory
  let files := (← others.mapM readFile).flatten
  return Disk.ofFiles files directories

end GalvoWeld.DryRun

open GalvoWeld GalvoWeld.DryRun in
def main (arguments : List String) : IO Unit := do
  let toRead := filesToRead arguments
  let toWrite := directoriesToKnow arguments (← survey toRead)
  let disk ← survey (toRead ++ toWrite)
  let output := run "weldlist" arguments disk
  IO.print output.text
  for (path, text) in disk.changes output.disk do
    IO.FS.writeFile path text
