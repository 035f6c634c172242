import Mathlib.Algebra.Group.Nat.Defs
import TcpRedirector.TCB.Files
import TcpRedirector.TCB.Run

/-!
# The scheduled rotation

`LogRotator.cpp`. A rotation takes several steps; between them the compressions
that were started go on, and the wait for one may end before it does. What a
system call does is an input of its step.
-/

namespace TR.Impl.Service.LogRotator

/-- What is used of `std::tm`. -/
structure Tm where
  year : Nat
  mon : Nat
  mday : Nat
  hour : Nat
  min : Nat
  deriving DecidableEq, Repr

structure Settings where
  enabled : Bool := true
  schedule : Bytes := ascii "daily"
  hour : Int := 3
  minute : Int := 0
  max_age_days : BitVec 32 := 30
  archive_dir : WString
  compress : Bool := true

/-- What the rotation is started with, and what is used of the system. -/
structure Config where
  settings : Settings
  logDir : WString
  /-- `localtime_s`, of a time in seconds. -/
  localtime : Int → Tm
  /-- The text of a complete archive. -/
  unzip : Bytes → Option Bytes
  /-- By how many ticks the epoch of `last_write_time` is before that of
  `system_clock`; the source takes them to be the same. -/
  fileEpoch : Int := 0

/-! ## Names -/

/-- A number in so many places, filled up with zeros. -/
def setw (w n : Nat) : Bytes := List.replicate (w - (decimal n).length) 48 ++ decimal n

def timestamp (tm : Tm) : Bytes :=
  setw 4 (tm.year + 1900) ++ ascii "-" ++ setw 2 (tm.mon + 1) ++ ascii "-" ++ setw 2 tm.mday ++ ascii "_" ++
    setw 2 tm.hour ++ setw 2 tm.min

namespace Config

variable (x : Config)

def logPath : Path := ⟨x.logDir, wide (ascii "tcp_redirector.log")⟩

def rotatedPath (ts : Bytes) : Path := ⟨x.logDir, wide (ascii "tcp_redirector_" ++ ts ++ ascii ".log")⟩

def zipPath (ts : Bytes) : Path := ⟨x.settings.archive_dir, wide (ascii "logs_" ++ ts ++ ascii ".zip")⟩

/-- Where the log goes if it is not compressed. -/
def dest (ts : Bytes) : Path := ⟨x.settings.archive_dir, (x.rotatedPath ts).name⟩

end Config

/-! ## The schedule -/

/-- A second in ticks of `system_clock`, in which all times are. -/
def SECOND : Int := 10000000

def HOUR : Int := 3600 * SECOND

def DAY : Int := 24 * HOUR

/-- `NeedRotate`. -/
def needRotate (x : Config) (now lastRotate : Int) : Bool :=
  if x.settings.enabled then
    let elapsed := (now - lastRotate).tdiv SECOND
    if elapsed < 60 then false
    else
      let tm := x.localtime (now.tdiv SECOND)
      if x.settings.schedule = ascii "hourly" then tm.min == x.settings.minute
      else tm.hour == x.settings.hour && tm.min == x.settings.minute
  else false

/-- A turn of `SchedulerThread`: the time at which it asks whether to rotate,
how much later the rotation reads the clock, and whether it ends without an
exception. -/
structure Poll where
  now : Int
  delay : Nat := 0
  completed : Bool := true
  deriving DecidableEq, Repr

/-- The turn on `m_lastRotate`, and whether it has rotated. -/
def poll (x : Config) (p : Poll) (lastRotate : Int) : Int × Bool :=
  if needRotate x p.now lastRotate then (if p.completed then p.now + p.delay else lastRotate, true)
  else (lastRotate, false)

/-! ## Rotations -/

/-- A compression that was started, and the text that it has read. -/
structure Compression where
  source : Path
  dest : Path
  text : Option Bytes := none
  deriving DecidableEq, Repr

/-- Where `RotateAndArchive` is. -/
inductive Phase where
  | idle
  | renamed (ts : Bytes)
  /-- In `WaitForSingleObject`. -/
  | waiting (ts : Bytes)
  /-- The archive exists. -/
  | found (ts : Bytes)
  | cleaning
  | reopening
  deriving DecidableEq, Repr

structure State where
  files : Files
  phase : Phase := .idle
  compressions : List Compression := []
  /-- The logs that were to be rotated. -/
  rotated : List Bytes := []
  /-- The files that `DeleteOldArchives` deleted, each with the time. -/
  expired : List (Int × Path × File) := []

inductive Input where
  /-- `RotateAndArchive` begins: the log is closed and renamed, if that works. -/
  | rotate (now : Int) (renamed : Bool)
  /-- The compression is started, or the file moved, if that works. -/
  | archive (ok : Bool)
  /-- The wait is over, and the archive is looked for. -/
  | waited
  | remove (ok : Bool)
  /-- `DeleteOldArchives`; which of the old files it gets deleted, with the time
  that the scan of the file's directory read. -/
  | deleteOld (deleted : List (Int × Path))
  | reopen (opened : Bool) (now : Int)
  /-- An exception. -/
  | throws
  /-- The logger writes to the log. -/
  | write (text : Bytes) (now : Int)
  /-- The compression reads its source. -/
  | read (k : Nat)
  /-- It has written a part of its archive. -/
  | partly (k : Nat) (content : Bytes) (now : Int)
  /-- It is done. -/
  | complete (k : Nat) (content : Bytes) (now : Int)
  /-- It ends without an archive. -/
  | fails (k : Nat)
  deriving DecidableEq, Repr

section

variable (x : Config)

def rotate (now : Int) (renamed : Bool) (s : State) : State :=
  let ts := timestamp (x.localtime (now.tdiv SECOND))
  match s.files x.logPath with
  | none => { s with phase := .renamed ts }
  | some f =>
    { s with
      files := if renamed then s.files.rename x.logPath (x.rotatedPath ts) else s.files
      phase := .renamed ts
      rotated := s.rotated ++ [f.content] }

def archive (ok : Bool) (ts : Bytes) (s : State) : State :=
  if x.settings.compress then
    if (s.files (x.rotatedPath ts)).isSome ∧ ok then
      { s with compressions := s.compressions ++ [⟨x.rotatedPath ts, x.zipPath ts, none⟩], phase := .waiting ts }
    else { s with phase := .cleaning }
  else
    { s with
      files := if ok then s.files.rename (x.rotatedPath ts) (x.dest ts) else s.files
      phase := .cleaning }

/-- `cutoff`. The hours are an `int`, the ticks have 64 bits, and either
overflows. -/
def cutoff (now : Int) : Int := (now - ((24 * x.settings.max_age_days).toInt * HOUR).bmod (2 ^ 64)).bmod (2 ^ 64)

/-- `ftime_sys < cutoff`, for the files that are looked at. -/
def isOld (now : Int) (p : Path) (f : File) : Bool :=
  (p.dir == x.settings.archive_dir || p.dir == x.logDir) &&
    (extension p.name == wide (ascii ".zip") || extension p.name == wide (ascii ".log")) &&
    p.name != wide (ascii "tcp_redirector.log") && decide (f.written + x.fileEpoch < cutoff x now)

/-- One of the files that are deleted. -/
def deleteOne (s : State) (d : Int × Path) : State :=
  match s.files d.2 with
  | none => s
  | some f =>
    if isOld x d.1 d.2 f then { s with files := s.files.remove d.2, expired := s.expired ++ [(d.1, d.2, f)] } else s

/-- `OpenLogFile`; the file is created if there is none. -/
def openLog (opened : Bool) (now : Int) (s : State) : State :=
  if opened ∧ s.files x.logPath = none then { s with files := s.files.put x.logPath ⟨[], now⟩ } else s

def step (i : Input) (s : State) : State × Unit :=
  match i, s.phase with
  | .rotate now renamed, .idle => (rotate x now renamed s, ())
  | .archive ok, .renamed ts => (archive x ok ts s, ())
  | .waited, .waiting ts => ({ s with phase := if (s.files (x.zipPath ts)).isSome then .found ts else .cleaning }, ())
  | .remove ok, .found ts =>
    ({ s with files := if ok then s.files.remove (x.rotatedPath ts) else s.files, phase := .cleaning }, ())
  | .deleteOld deleted, .cleaning => ({ deleted.foldl (deleteOne x) s with phase := .reopening }, ())
  | .reopen opened now, .reopening => ({ openLog x opened now s with phase := .idle }, ())
  | .throws, _ => ({ s with phase := if s.phase = .idle then .idle else .reopening }, ())
  | .write text now, .idle =>
    match s.files x.logPath with
    | none => (s, ())
    | some f => ({ s with files := s.files.put x.logPath ⟨f.content ++ text, now⟩ }, ())
  | .read k, _ =>
    match s.compressions[k]? with
    | none => (s, ())
    | some c => ({ s with compressions := s.compressions.set k { c with text := (s.files c.source).map (·.content) } }, ())
  | .partly k content now, _ =>
    match s.compressions[k]? with
    | none => (s, ())
    | some c => if x.unzip content = none then ({ s with files := s.files.put c.dest ⟨content, now⟩ }, ()) else (s, ())
  | .complete k content now, _ =>
    match s.compressions[k]? with
    | none => (s, ())
    | some c =>
      if c.text ≠ none ∧ x.unzip content = c.text then
        ({ s with files := s.files.put c.dest ⟨content, now⟩, compressions := s.compressions.eraseIdx k }, ())
      else (s, ())
  | .fails k, _ => ({ s with compressions := s.compressions.eraseIdx k }, ())
  | _, _ => (s, ())

end

end TR.Impl.Service.LogRotator
