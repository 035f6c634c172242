import Mathlib.Algebra.Group.Nat.Defs
import TcpRedirector.TCB.Files
import TcpRedirector.TCB.Run

/-!
# The rotation by size

`OpenLogFile`, `RotateLogFile` and the size check of `WriterThread` in
`Logger.cpp`. The rotation by the schedule has another module.
-/

namespace TR.Impl.Service.SizeRotation

/-- The arguments of `Initialize`. -/
structure Config where
  log_dir : WString
  max_file_size_mb : BitVec 64 := 10
  max_files : BitVec 64 := 5
  deriving DecidableEq, Repr

namespace Config

variable (x : Config)

def maxFileSize : BitVec 64 := x.max_file_size_mb * 1024 * 1024

/-- `m_maxFiles - 1`. -/
def last : Nat := (x.max_files - 1).toNat

def logPath : Path := ⟨x.log_dir, wide (ascii "tcp_redirector.log")⟩

def backupPath (i : Nat) : Path := ⟨x.log_dir, wide (ascii "tcp_redirector." ++ decimal i ++ ascii ".log")⟩

end Config

structure State where
  files : Files
  /-- `m_file` is not null. -/
  opened : Bool := false
  /-- The segments that were closed by rotations, the newest first. -/
  closed : List Bytes := []

/-- An entry that the writer writes, and what the system calls do then. -/
structure Input where
  /-- What the file gets, with the end of the line. -/
  text : Bytes
  now : Int
  removed : Bool := true
  /-- By the new number. -/
  renamed : Nat → Bool := fun _ => true
  /-- The rename of the log. -/
  moved : Bool := true
  reopened : Bool := true

/-- `ftell`; a `long` has 32 bits. -/
def ftell (size : Nat) : Int := if size < 2 ^ 31 then size else -1

/-- `if (exists(src)) rename(src, dst, ec)`. -/
def move (ok : Bool) (src dst : Path) (fs : Files) : Files :=
  if (fs src).isSome ∧ ok then fs.rename src dst else fs

section

variable (x : Config)

/-- The log is created if there is none. -/
def openLogFile (opened : Bool) (now : Int) (s : State) : State :=
  { s with
    files := if opened ∧ s.files x.logPath = none then s.files.put x.logPath ⟨[], now⟩ else s.files
    opened := opened }

/-- The loop, from `i` down. -/
def shift (renamed : Nat → Bool) : Nat → Files → Files
  | 0, fs => fs
  | i + 1, fs => shift renamed i (move (renamed (i + 1)) (x.backupPath i) (x.backupPath (i + 1)) fs)

def rotateLogFile (i : Input) (s : State) : State :=
  let removed := if i.removed then s.files.remove (x.backupPath x.last) else s.files
  let shifted := shift x i.renamed x.last removed
  let closed := match s.files x.logPath with
    | none => s.closed
    | some f => f.content :: s.closed
  openLogFile x i.reopened i.now ⟨move i.moved x.logPath (x.backupPath 1) shifted, false, closed⟩

def initializeLogger (opened : Bool) (now : Int) (fs : Files) : State := openLogFile x opened now { files := fs }

/-- The entry is written, and whether the log is rotated then. -/
def step (i : Input) (s : State) : State × Bool :=
  if s.opened then
    match s.files x.logPath with
    | none => (s, false)
    | some f =>
      let s' := { s with files := s.files.put x.logPath ⟨f.content ++ i.text, i.now⟩ }
      let pos := ftell (f.content ++ i.text).length
      if 0 < pos ∧ x.maxFileSize.toNat ≤ pos.toNat then (rotateLogFile x i s', true) else (s', false)
  else (s, false)

end

end TR.Impl.Service.SizeRotation
