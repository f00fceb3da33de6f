import SourceOutline.CommandLine
import SourceOutline.Workspace

/-!
# The program

Reads the workspace from standard input, runs the command line on it, and carries out
what the run leaves behind: the two output streams, the files and the exit code.
-/

namespace SourceOutline

/-- The workspace on standard input, which is read only when the arguments need it. -/
def readWorkspace (arguments : List String) : IO Workspace := do
  match CommandLine.parse arguments with
  | .error _ => return {}
  | .ok _ =>
    let text ← (← IO.getStdin).readToEnd
    match Workspace.parse? text with
    | some w => return w
    | none => throw (IO.userError "standard input holds no workspace")

/-- Carries out what a run leaves behind. -/
def carryOut (before : FileTree) (effect : CommandLine.Effect) : IO UInt32 := do
  for (location, content) in FileTree.changesSince before effect.files do
    IO.FS.writeBinFile (Path.text (before.pathTo location)) (ByteArray.mk content.toArray)
  (← IO.getStdout).putStr effect.stdout
  (← IO.getStderr).putStr effect.stderr
  return UInt32.ofNat effect.exitCode

end SourceOutline

def main (arguments : List String) : IO UInt32 := do
  let w ← SourceOutline.readWorkspace arguments
  SourceOutline.carryOut w.files (SourceOutline.CommandLine.execute w.files w.parser arguments)
