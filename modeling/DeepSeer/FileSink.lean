import DeepSeer.ByteText
import Mathlib.Logic.Function.Basic

/-!
The log sink that writes to a file and rotates it by size. The files are a map from
paths; what a stream still buffers counts as part of its file. Removing, renaming and
opening can fail, and the sink ignores where they do.
-/
namespace DeepSeer

open ByteMemory ByteText

/-- A path is the directory and the name of a file in it. -/
structure Path where
  parent_path : Bytes
  filename : Bytes
  deriving DecidableEq, Repr

namespace Path

/-- Where the extension of the name begins: at its last dot, unless that is the first
byte. -/
def extensionStart (p : Path) : Nat :=
  if p.filename = text "." ∨ p.filename = text ".." then p.filename.length
  else
    match rfind 46 p.filename with
    | none => p.filename.length
    | some 0 => p.filename.length
    | some i => i

def stem (p : Path) : Bytes := p.filename.take p.extensionStart

def extension (p : Path) : Bytes := p.filename.drop p.extensionStart

theorem stem_extension (p : Path) : p.stem ++ p.extension = p.filename :=
  List.take_append_drop _ _

end Path

/-- The contents of the files that exist. -/
abbrev Files := Path → Option Bytes

/-- Which operations on files succeed. -/
structure FileSystem where
  removes : Files → Path → Bool
  renames : Files → Path → Path → Bool
  opens : Files → Path → Bool

namespace FileSystem

/-- `fs::remove`. -/
def remove (sys : FileSystem) (files : Files) (p : Path) : Files :=
  if sys.removes files p then Function.update files p none else files

/-- `fs::rename`, which replaces the file at the new path. -/
def rename (sys : FileSystem) (files : Files) (src dst : Path) : Files :=
  match files src with
  | none => files
  | some data =>
    if sys.renames files src dst then
      Function.update (Function.update files src none) dst (some data)
    else files

/-- `std::fopen(path, "ab")`, with the size of the file that is opened. -/
def append (sys : FileSystem) (files : Files) (p : Path) : Option (Files × Nat) :=
  if sys.opens files p then
    let data := (files p).getD []
    some (Function.update files p (some data), data.length)
  else none

end FileSystem

structure FileSinkConfig where
  path : Path
  maxFileSize : Nat := 10 * 1024 * 1024
  maxFiles : Nat := 5

/-- The path of the rotated file of an index. -/
def FileSinkConfig.rotatedPath (config : FileSinkConfig) (index : Nat) : Path :=
  let p := config.path
  { parent_path := p.parent_path
    filename := p.stem ++ text "." ++ decimal index ++ p.extension }

/-- The sink, with the files of the machine. `file_` is whether a stream is open. -/
structure FileSink where
  config_ : FileSinkConfig
  file_ : Bool := false
  currentSize_ : Nat := 0
  files : Files

namespace FileSink

variable (sys : FileSystem)

def openFile (s : FileSink) : FileSink :=
  match sys.append s.files s.config_.path with
  | some (files, size) => { s with file_ := true, currentSize_ := size, files := files }
  | none => { s with file_ := false, currentSize_ := 0 }

/-- A new sink over the files that there are. -/
def construct (config : FileSinkConfig) (files : Files) : FileSink :=
  openFile sys { config_ := config, files := files }

/-- The renames `i - 1` to `i`, from the given index down to the second one. -/
def renameChain (rotatedPath : Nat → Path) : Nat → Files → Files
  | i + 2, files =>
    renameChain rotatedPath (i + 1) (sys.rename files (rotatedPath (i + 1)) (rotatedPath (i + 2)))
  | _, files => files

def rotate (s : FileSink) : FileSink :=
  let config := s.config_
  let files := sys.remove s.files (config.rotatedPath config.maxFiles)
  let files := renameChain sys config.rotatedPath config.maxFiles files
  let files := sys.rename files config.path (config.rotatedPath 1)
  openFile sys { s with file_ := false, files := files }

def rotateIfNeeded (s : FileSink) : FileSink :=
  if s.currentSize_ < s.config_.maxFileSize then s else s.rotate sys

def write (s : FileSink) (formatted : Bytes) : FileSink :=
  if s.file_ then
    let path := s.config_.path
    let files := Function.update s.files path ((s.files path).map (· ++ formatted))
    rotateIfNeeded sys
      { s with files := files, currentSize_ := s.currentSize_ + formatted.length }
  else s

end FileSink

end DeepSeer
