/-
The program as it runs: it reads the files that its arguments name into a volume, and prints what
the run on that volume gives. Attributes of files are out of its reach, so it takes no corpus from a
directory; so are connections, so it takes no embeddings from a service.
-/
import Std.Time.Format
import ScopedRetrieval.CommandLine.Program

namespace ScopedRetrieval.CommandLine

/-- The files that an invocation reads. -/
def Invocation.filePaths (i : Invocation) (home : Option String) : List String :=
  (i.config.or (home.map Configuration.homePath)).toList ++
    match i.command with
    | .query _ (.manifest path) _ _ => [path]
    | _ => []

/-- Whether an invocation takes its corpus from a directory. -/
def Invocation.readsDirectory (i : Invocation) : Bool :=
  i.command matches .query _ (.directory _) _ _

/-- Makes a directory, if that can be done. -/
def addDirectory (v : Volume) (path : String) : Volume := (v.makeDirectories path).toOption.getD v

/-- Adds what is at a path on the disk, if it is a file that can be read, or a directory. -/
def addFromDisk (v : Volume) (path : String) : IO Volume := do
  try
    let content ← IO.FS.readBinFile path
    let v := (Volume.Path.parent? path).elim v (addDirectory v)
    return (v.write path content.data.toList).toOption.getD v
  catch
    | .inappropriateType .. => return addDirectory v path
    | _ => return v

/-- A random identifier: 32 hexadecimal digits in five groups, of which two tell its kind. -/
def randomIdentifier : IO String := do
  let bytes ← IO.getRandomBytes 16
  let digits := bytes.toList.flatMap fun b =>
    [Nat.digitChar (b.toNat / 16), Nat.digitChar (b.toNat % 16)]
  let variant := (bytes.toList.getD 8 0).toNat % 4
  let digits := (digits.set 12 '4').set 16 (Nat.digitChar (8 + variant))
  let group (start length : Nat) := String.ofList ((digits.drop start).take length)
  return String.intercalate "-" [group 0 8, group 8 4, group 12 4, group 16 4, group 20 12]

/-- The time in the zone of Greenwich. -/
def timestampNow : IO String := do
  let wall := Std.Time.WallTime.ofTimestamp (← Std.Time.Timestamp.now) Std.Time.TimeZone.Offset.zero
  return toString (Std.Time.PlainDateTime.ofWallTime wall) ++ "Z"

/-- The number of processors that the system lists, and none where it lists nothing. -/
def countProcessors : IO UInt64 := do
  try
    let text ← IO.FS.readFile "/proc/cpuinfo"
    return .ofNat ((text.splitOn "\n").countP (·.startsWith "processor"))
  catch _ => return 0

/-- The network of a program that opens no connections: no client can be had from it. -/
def noNetwork : Network := ⟨fun _ => .error { message := "connections are out of reach" }⟩

def readSurroundings : IO Surroundings := do
  return {
    home := ← IO.getEnv "HOME"
    temporary := (← IO.getEnv "TMPDIR").getD "/tmp"
    runId := ← randomIdentifier
    requestId := ← randomIdentifier
    timestamp := ← timestampNow
    processors := ← countProcessors
    network := noNetwork }

/-- The volume that an invocation runs on. -/
def readVolume (s : Surroundings) (i : Invocation) : IO Volume := do
  let current := (← IO.getEnv "PWD").getD "/"
  let v : Volume := { keepsAttributes := false }
  let mut v := { addDirectory (addDirectory v current) s.temporary with current }
  for path in i.filePaths s.home do
    v ← addFromDisk v path
  match i.command with
  | .checkAttributes (some directory) => addFromDisk v directory
  | _ => return v

/-- Prints a transcript and gives its code. -/
def Transcript.print (t : Transcript) : IO UInt32 := do
  IO.print t.stdout
  IO.eprint t.stderr
  return t.code.toUInt32

def runHere (arguments : List String) : IO UInt32 := do
  match parse arguments with
  | .error stop => stop.transcript.print
  | .ok i =>
    if i.readsDirectory then
      (Transcript.failed [] ["extended attributes are out of reach; use --manifest"]).print
    else
      let s ← readSurroundings
      (run s (← readVolume s i) arguments).print

end ScopedRetrieval.CommandLine

def main (arguments : List String) : IO UInt32 := ScopedRetrieval.CommandLine.runHere arguments
