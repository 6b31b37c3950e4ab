import GossipDirectory.Server.Program

/-!
# The command line

Reads the files that a command line names, runs the program on a machine without a network, writes
back the files that the run changed, and reports how it ended.
-/

namespace GossipDirectory

namespace Main

/-- Adds a file of the machine, if it can be read. -/
def withFile (files : FileTree) (path : String) : IO FileTree := do
  if path = "" then return files
  match ← (IO.FS.readBinFile path).toBaseIO with
  | .ok content => return files.place path content.toList
  | .error _ => return files

/-- Creates a file that does not exist yet, if that is possible. -/
def touch (path : String) : IO Unit := do
  match ← (IO.FS.withFile path .append fun _ => pure ()).toBaseIO with
  | .ok () | .error _ => return ()

/-- Writes a file back if the run changed it. -/
def keepFile (before after : FileTree) (path : String) : IO Unit := do
  match before.read path, after.read path with
  | .ok old, .ok new => if old ≠ new then IO.FS.writeBinFile path ⟨new.toArray⟩
  | .error _, .ok new => IO.FS.writeBinFile path ⟨new.toArray⟩
  | _, .error _ => return ()

/-- What a run draws at random. -/
def drawRandomness : IO Randomness := do
  let seed ← IO.getRandomBytes 32
  let draws (n : Nat) : IO (List Nat) := (List.range n).mapM fun _ => IO.rand 0 UInt32.size
  return { seed := seed.toList, bootstrap := ← draws 64, snapshot := ← draws 4096 }

/-- Starting another program is refused: this machine has none. -/
def refuseLaunch (l : Launch) : Except Failure ChildProcess :=
  .error (.spawn (.launch l.name "No such file or directory"))

end Main

end GossipDirectory

open GossipDirectory in
/-- Runs the program with its command line. -/
def main (arguments : List String) : IO UInt32 := do
  let nothing : FileTree := { FileTree.empty with home := some "" }
  let files ← Main.withFile nothing (Program.optionsFile arguments)
  let log := (Program.logFile? arguments files).toList
  log.forM Main.touch
  let used := log ++ (Program.snapshotFile? arguments files).toList
  let files ← used.foldlM Main.withFile files
  let machine := Machine.secluded files "soroban" Main.refuseLaunch
  let environment ← IO.getEnv "SOROBAN_LOG"
  let (ending, after) := Program.run machine arguments environment (← Main.drawRandomness)
  used.forM (Main.keepFile files after)
  match Program.report? ending, Program.exitCode ending with
  | some text, 0 => IO.println text
  | some text, _ => IO.eprintln text
  | none, _ => pure ()
  return UInt32.ofNat (Program.exitCode ending)
