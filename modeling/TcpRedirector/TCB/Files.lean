import Mathlib.Logic.Function.Basic
import TcpRedirector.TCB.Bytes

/-!
# Files

The files of some directories, each with its contents and the time of its last
change. A rename replaces a file of the new name, as
`std::filesystem::rename` does.
-/

namespace TR

/-- A wide string from the characters of a narrow one. -/
def wide (b : Bytes) : WString := b.map fun c => c.setWidth 16

structure Path where
  dir : WString
  name : WString
  deriving DecidableEq, Repr

/-- `extension`: the name from its last dot on, if it does not start there. -/
def extension (name : WString) : WString :=
  if 46 ∈ name.drop 1 then 46 :: (name.reverse.takeWhile (· ≠ 46)).reverse else []

structure File where
  content : Bytes
  written : Int
  deriving DecidableEq, Repr

abbrev Files := Path → Option File

namespace Files

def put (p : Path) (f : File) (fs : Files) : Files := Function.update fs p (some f)

def remove (p : Path) (fs : Files) : Files := Function.update fs p none

/-- A missing file is not renamed. -/
def rename (src dst : Path) (fs : Files) : Files :=
  match fs src with
  | none => fs
  | some f => (fs.remove src).put dst f

end Files

end TR
