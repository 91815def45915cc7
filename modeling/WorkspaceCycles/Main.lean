import WorkspaceCycles.CommandLine

namespace WorkspaceCycles

namespace FileTree

def ofTexts (texts : List (String × String)) : FileTree :=
  texts.foldl
    (fun t f => t.put (Path.ofString f.1) (.file f.2.toUTF8.toList false))
    empty

def ofArchive? (v : Json) : Option FileTree :=
  let entry? (f : String × Json) : Option (String × String) := f.2.text?.map fun s => (f.1, s)
  match v with
  | .object fields => (fields.mapM entry?).map ofTexts
  | _ => none

end FileTree

namespace Main

partial def readAll (input : IO.FS.Stream) (read : ByteArray) : IO ByteArray := do
  let more ← input.read 65536
  if more.isEmpty then return read else readAll input (read ++ more)

def readArchive (bytes : ByteArray) : Except String FileTree := do
  let text ← (Text.Utf8.decode bytes.toList).mapError (·.message)
  let v ← (Json.read text).mapError (·.message text)
  match FileTree.ofArchive? v with
  | some t => return t
  | none => throw "an archive is an object of paths and texts"

def hostOf (files : FileTree) : Host where
  files
  searchPath := []
  execute := fun _ _ => .notStarted "there are no programs in an archive"
  reportFile := Path.ofString "/tmp/dpdm.json"

end Main

end WorkspaceCycles

open WorkspaceCycles in
def main (args : List String) : IO UInt32 := do
  let bytes ← Main.readAll (← IO.getStdin) .empty
  match Main.readArchive bytes with
  | .error message =>
    IO.eprintln message
    return 1
  | .ok files =>
    match CommandLine.run (Main.hostOf files) Path.top false args with
    | .error fault =>
      IO.eprintln fault.message
      return 1
    | .ok ending =>
      IO.eprint ending.stderr
      IO.print ending.stdout
      return ending.exitCode.toUInt32
