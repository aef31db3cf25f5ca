/-
Where the bytes of deferred modules come from.

A loader turns a logical name into a source: buffered bytes or a stream.  A directory
loader takes only names that are plain file names.  A loader of the embedder's own may
answer as it likes, also differently each time.
-/
import ModuleHost.Deferred.State
import ModuleHost.Engine.Reader

namespace ModuleHost

/-- Bytes of a deferred module. -/
inductive Source where
  | bytes (data : List UInt8)
  | stream (reader : Reader)
  deriving DecidableEq, Repr

/-- All bytes of a source. -/
def Source.read (s : Source) (chunkSize : Nat) : Except String (List UInt8) :=
  match s with
  | .bytes data => .ok data
  | .stream reader => reader.drain chunkSize

/-- A strategy for finding modules by name. -/
inductive Loader where
  /-- Modules held in memory. -/
  | static (modules : List (String × List UInt8))
  /-- Modules read from streams. -/
  | streams (modules : List (String × List UInt8)) (delivery : Reader.Delivery)
  /-- Modules in the files of a directory. -/
  | directory (root : String) (files : List (String × List UInt8))
  /-- Refuses every request. -/
  | refusing (report : Report)
  /-- The embedder's own; it may answer by what it was asked before. -/
  | strategy (answer : (asked : List String) → (name : String) → Except Report Source)

namespace Loader

/-- Bytes below which a path must stay. -/
def pathLimit : Nat := 4096

/-- Why a file of a path cannot be opened when there is none. -/
def openFailure (path : String) : String :=
  if path.toList.contains '\x00' then "file name contained an unexpected NUL byte"
  else if pathLimit ≤ path.utf8ByteSize then "File name too long (os error 36)"
  else "No such file or directory (os error 2)"

/-- Whether a name is a plain file name. -/
def isPlainName (name : String) : Bool :=
  !name.isEmpty && !name.toList.contains '/' && !name.toList.contains '\\' && name.front ≠ '.'

/-- Find a module, having been asked for others before. -/
def load (l : Loader) (asked : List String) (name : String) : Except Report Source :=
  match l with
  | static modules =>
    match modules.lookup name with
    | some data => .ok (.bytes data)
    | none => .error (.of s!"no deferred module named `{name}`")
  | streams modules delivery =>
    match modules.lookup name with
    | some data => .ok (.stream (.delivering delivery data))
    | none => .error (.of s!"no stream `{name}`")
  | directory root files =>
    if !isPlainName name then .error (.of s!"invalid deferred module name `{name}`")
    else
      match files.lookup name with
      | some data => .ok (.stream (.ofBytes data))
      | none =>
        let path := s!"{root}/{name}.wasm"
        .error ⟨s!"opening {path}", [openFailure path]⟩
  | refusing report => .error report
  | strategy answer => answer asked name

end Loader

end ModuleHost
