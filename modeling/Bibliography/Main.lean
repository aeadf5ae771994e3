import Bibliography.CommandLine.Program

set_option autoImplicit false

/-! # Entry point

Runs the command on the files of the machine. -/

namespace Bibliography

/-- The cause of an error of the operating system. -/
def FileError.ofError : IO.Error → FileError
  | .noFileOrDirectory _ _ _ => .notFound
  | .inappropriateType _ _ _ => .notDirectory
  | e => .other (toString e)

/-- A path in a directory listing, which is how the machine's files are asked about. -/
def Path.located (p : Path) : IO.FS.DirEntry := ⟨String.ofList p, ""⟩

def readText (p : Path) : IO (Except FileError Text) := do
  try
    if ← (Path.located p).root.isDir then return .error .isDirectory
    let bytes ← IO.FS.readBinFile (Path.located p).root
    match String.fromUTF8? bytes with
    | some s => return .ok s.toList
    | none => return .error .notText
  catch e => return .error (.ofError e)

def writeText (p : Path) (s : Text) : IO (Except FileError Unit) := do
  try
    if ← (Path.located p).root.isDir then return .error .isDirectory
    IO.FS.writeFile (Path.located p).root (String.ofList s)
    return .ok ()
  catch e => return .error (.ofError e)

def isMachineFile (p : Path) : IO Bool := do
  return (← (Path.located p).root.pathExists) && !(← (Path.located p).root.isDir)

partial def completeAux (r : AuxReading) : IO (Except AuxError AuxContents) := do
  match r.advance with
  | .finished result => return result
  | .wants path next =>
    match ← readText path with
    | .error e => return .error (.unreadable path e)
    | .ok text => completeAux (next.supply path text)

/-- What an aux file of the machine, and those that it inputs, ask for. -/
def readAuxFile (path : Path) : IO (Except AuxError AuxContents) := do
  match ← readText path with
  | .error e => return .error (.unreadable path e)
  | .ok text => return (← completeAux (.start path text)).bind fun a => a.settled path

def machineAccess : JobAccess IO where
  read := readText
  isFile := isMachineFile
  isPresent p := (Path.located p).root.pathExists
  write := writeText
  readAux := readAuxFile

end Bibliography

open Bibliography in
def main (arguments : List String) : IO UInt32 := do
  let result ← CommandLine.run machineAccess 18446744073709551615 (arguments.map String.toList)
  IO.print result.output
  IO.eprint result.errors
  return result.code.toUInt32
