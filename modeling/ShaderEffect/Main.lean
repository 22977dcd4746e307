import ShaderEffect.Command.Arguments

namespace ShaderEffect.Main

open Command

/-- A text of one character per byte. -/
def ofBytes (bytes : ByteArray) : String :=
  String.ofList (bytes.toList.map fun b => Char.ofNat b.toNat)

def toBytes (text : String) : ByteArray :=
  ⟨(text.toList.map fun c => UInt8.ofNat c.toNat).toArray⟩

/-- A name of the system as a text of bytes. -/
def ofSystem (name : String) : String :=
  ofBytes name.toUTF8

def toSystem (text : String) : String :=
  (String.fromUTF8? (toBytes text)).getD text

/-- The content of a file, if it can be read. -/
def readFile? (path : String) : IO (Option String) := do
  try
    let bytes ← IO.FS.readBinFile (toSystem path)
    return some (ofBytes bytes)
  catch _ => return none

/-- Reads the files a command wants until none is new. -/
partial def readFiles (a : Arguments) (tried : List String) (known : List (String × String)) :
    IO (List (String × String)) := do
  match (wanted a known).filter (!tried.contains ·) with
  | [] => return known
  | new =>
    let found ← new.filterMapM fun path => do
      return (← readFile? path).map fun text => (path, text)
    readFiles a (tried ++ new) (known ++ found)

/-- Writes a text of bytes. -/
def emit (stream : IO.FS.Stream) (text : String) : IO Unit := do
  stream.write (toBytes text)
  stream.flush

/-- Runs a command on the files of the system, and prints and writes what it leaves behind. -/
def run (a : Arguments) (command : CommandM Unit) : IO UInt32 := do
  let stderr ← IO.getStderr
  let verbosity := { a.verbosity with color := a.verbosity.color && (← stderr.isTty) }
  let files := Files.ofList (← readFiles a [] [])
  match command.run { verbosity, files } with
  | .error fault =>
    emit stderr ("Error: " ++ fault.message?.getD "internal error" ++ "\n")
    return 2
  | .ok (outcome, console) =>
    for (path, content) in console.files.changedSince files do
      IO.FS.createDirAll (toSystem (Path.dir path))
      IO.FS.writeBinFile (toSystem path) (toBytes content)
    emit (← IO.getStdout) console.stdout
    emit stderr console.stderr
    match outcome with
    | .ok _ => return 0
    | .error e =>
      emit stderr ("Error: " ++ e.message ++ "\n")
      return 1

/-- Runs what the arguments call for. -/
def runArguments (args : List String) : IO UInt32 := do
  let parsed := Arguments.read {} (args.map ofSystem)
  match parsed.bind fun a => a.command.map fun c => (a, c) with
  | .ok (a, command) => run a command
  | .error e =>
    emit (← IO.getStderr) ("fxc: error: " ++ e.message ++ "\n")
    return 80

end ShaderEffect.Main

def main (args : List String) : IO UInt32 :=
  ShaderEffect.Main.runArguments args
