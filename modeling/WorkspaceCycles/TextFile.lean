import WorkspaceCycles.FileTree
import WorkspaceCycles.Json.Reader
import WorkspaceCycles.Text.Newline
import WorkspaceCycles.Text.Utf8

namespace WorkspaceCycles

inductive TextFault where
  | file (fault : FileFault) (p : Path)
  | undecodable (error : Text.Utf8.DecodeError)

def TextFault.message : TextFault → String
  | .file fault p => fault.message p
  | .undecodable error => error.message

def FileTree.readText (t : FileTree) (p : Path) : Except TextFault (List Char) :=
  match t.read p with
  | .error fault => .error (.file fault p)
  | .ok bytes =>
    match Text.Utf8.decode bytes with
    | .error error => .error (.undecodable error)
    | .ok text => .ok (Text.unifyNewlines text)

namespace FileTree

theorem readText_of_undecodable {t : FileTree} {file : Path} {bytes : List UInt8}
    {error : Text.Utf8.DecodeError} (hr : t.read file = .ok bytes)
    (hd : Text.Utf8.decode bytes = .error error) :
    t.readText file = .error (.undecodable error) := by
  simp only [readText, hr, hd]

theorem readText_of_decode {t : FileTree} {file : Path} {bytes : List UInt8} {text : List Char}
    (hr : t.read file = .ok bytes) (hd : Text.Utf8.decode bytes = .ok text) :
    t.readText file = .ok (Text.unifyNewlines text) := by
  simp only [readText, hr, hd]

theorem readText_eq_ok_iff {t : FileTree} {p : Path} {source : List Char} :
    t.readText p = .ok source ↔ ∃ bytes text, t.read p = .ok bytes ∧
      Text.Utf8.decode bytes = .ok text ∧ Text.unifyNewlines text = source := by
  unfold readText
  cases t.read p with
  | error => simp
  | ok bytes => cases hd : Text.Utf8.decode bytes <;> simp [hd]

end FileTree

end WorkspaceCycles
