import ThriftGateway.Command.Run

/-!
# The program

The command on the files of this machine.  It runs on the files known so far; while a file that it lacks is on the
disk, that file is added and the command runs again.
-/

namespace ThriftGateway.Command

open Source (FileTree Path)

/-- The tree with what is at a path: a file, a directory or nothing. -/
def look (t : FileTree) (p : Path) : IO FileTree := do
  let place := (← IO.currentDir) / p.text
  if ← place.isDir then return { t with directories := p :: t.directories }
  else if ← place.pathExists then return t.write p (← IO.FS.readBinFile place).toList
  else return t

/-- The tree with what the words of a command line name, and the directories around it. -/
def lookAround (t : FileTree) (args : List String) : IO FileTree := do
  match Words.read args with
  | .error _ => return t
  | .ok w =>
    (w.config.toList ++ w.operands).foldlM (fun t written => do
      let p := t.working.resolve written
      look (← look t p.parent) p) t

/-- Runs the command, adding files that are missing from the tree. -/
partial def runLooking (t : FileTree) (args : List String) : IO (FileTree × Run) := do
  let r := run t args
  let wanted := match r.ending with
    | .stopped (.failed e) => e.missingFile?
    | _ => none
  match wanted with
  | none => return (t, r)
  | some p =>
    let t' ← look t p
    if t'.contains p then runLooking t' args else return (t, r)

/-- Runs the command on the words of the command line, writes the file and prints; gives the exit code. -/
def runProgram (args : List String) : IO UInt32 := do
  let cwd ← IO.currentDir
  let t ← lookAround { working := Path.root.resolve cwd.toString, files := [] } args
  let (t, r) ← runLooking t args
  for (p, bytes) in r.written t do
    IO.FS.writeBinFile (cwd / p.text) ⟨bytes.toArray⟩
  IO.print r.output
  IO.eprint r.report
  if let .stopped (.failed e) := r.ending then IO.eprintln (e.message r.halves)
  return r.exitCode.toUInt32

end ThriftGateway.Command

/-- The program. -/
def main (args : List String) : IO UInt32 := ThriftGateway.Command.runProgram args
