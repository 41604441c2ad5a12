import Phrasebook.Command.Run

/-!
# The command line

The command on the files of the machine: `Disk.machine` carries out file operations, and `main`
prints what the command gives.
-/

namespace Phrasebook

open Files Command

/-- The fault that an error of the system stands for. -/
def Files.Fault.ofError : IO.Error → Fault
  | .noFileOrDirectory _ _ _ => .notFound
  | .alreadyExists _ _ _ => .alreadyExists
  | .inappropriateType _ code _ => if code = 21 then .isDirectory else .notDirectory
  | error => .unknown (toString error)

/-- The result of an action, or the fault that it fails with. -/
def Files.attempt {α : Type} (action : IO α) : IO (Except Fault α) := do
  try
    return .ok (← action)
  catch error =>
    return .error (.ofError error)

/-- The operations on the files of the machine. -/
def Files.Disk.machine : Disk IO where
  isFile path := do
    match ← attempt (do return (← (← IO.FS.realPath (String.ofList path)).metadata).type) with
    | .ok .file => return true
    | _ => return false
  read path := do
    match ← attempt (IO.FS.readBinFile (String.ofList path)) with
    | .error fault => return .error fault
    | .ok bytes =>
      match Content.ofBytes bytes with
      | .text value => return .ok value
      | .bytes _ => return .error .notText
  regularFiles path := attempt do
    let place ← IO.FS.realPath (String.ofList path)
    match (← place.metadata).type with
    | .file => return [path]
    | _ =>
      let mut files := []
      for entry in ← place.readDir do
        if (← entry.path.metadata).type matches .file then
          files := Path.join path entry.fileName.toList :: files
      return files
  makeDirectories path := attempt (IO.FS.createDirAll (String.ofList path))
  write path content :=
    attempt (IO.FS.writeFile (String.ofList path) (String.ofList content))

/-- The line of an event in the log. -/
def Event.line (event : Event) : Text :=
  event.level.name ++ " " ++ event.message ++
    event.fields.flatMap fun (name, value) => ' ' :: name ++ '=' :: value

end Phrasebook

open Phrasebook in
/-- Runs the command: reports on standard output, everything else on standard error. -/
def main (arguments : List String) : IO UInt32 := do
  let start ← IO.monoMsNow
  let clock : IO Nat := do return (← IO.monoMsNow) - start
  let execution ← Command.execute Files.Disk.machine clock (arguments.map String.toList)
  for event in execution.log do
    if execution.verbose || event.level == .warn then
      IO.eprintln (String.ofList event.line)
  IO.print (String.ofList execution.output)
  IO.eprint (String.ofList execution.errorOutput)
  for message in execution.report do
    IO.eprintln (String.ofList message)
  return execution.exitCode.toUInt32
