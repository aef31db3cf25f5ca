/-
Reading the bytes of a module source.

A reader is what its reads will give, in order: some bytes, an interruption, or a
failure.  A read asks for at most so many bytes and leaves the rest for the next one.
`Reader.drain` reads to the end whatever the chunk size, ignoring interruptions, and
stops at the first failure.
-/
namespace ModuleHost

/-- What one read gives, if it asks for enough. -/
inductive ReadOutcome where
  | bytes (chunk : List UInt8)
  | interrupted
  | failed (text : String)
  deriving DecidableEq, Repr

/-- A source of bytes, by what its reads will give. -/
structure Reader where
  outcomes : List ReadOutcome
  deriving DecidableEq, Repr

namespace Reader

/-- One read of at most `room` bytes; no bytes are the end of the data. -/
def read (room : Nat) : List ReadOutcome → ReadOutcome × List ReadOutcome
  | [] => (.bytes [], [])
  | .bytes chunk :: rest =>
    if chunk.length ≤ room then (.bytes chunk, rest)
    else (.bytes (chunk.take room), .bytes (chunk.drop room) :: rest)
  | outcome :: rest => (outcome, rest)

/-- Reads that are needed at most: one for each byte and each outcome, and one for the end. -/
def readsNeeded (outcomes : List ReadOutcome) : Nat :=
  outcomes.foldr (fun o n => match o with
    | .bytes chunk => chunk.length + 1 + n
    | _ => 1 + n) 1

/-- Read on after `got`, at most `fuel` times. -/
def drainWith (room : Nat) : (fuel : Nat) → (got : List UInt8) → List ReadOutcome →
    Except String (List UInt8)
  | 0, got, _ => .ok got
  | fuel + 1, got, outcomes =>
    match read room outcomes with
    | (.bytes [], _) => .ok got
    | (.bytes chunk, rest) => drainWith room fuel (got ++ chunk) rest
    | (.interrupted, rest) => drainWith room fuel got rest
    | (.failed text, _) => .error text

/-- All bytes up to the end of the data, read in chunks of at most `chunkSize` bytes, or the
text of the failure. -/
def drain (r : Reader) (chunkSize : Nat) : Except String (List UInt8) :=
  drainWith (max chunkSize 1) (readsNeeded r.outcomes) [] r.outcomes

/-- The pieces of some bytes, each of `size` bytes but the last; `fuel` bounds their number. -/
def piecesWith (size : Nat) : (fuel : Nat) → List UInt8 → List ReadOutcome
  | 0, _ => []
  | _ + 1, [] => []
  | fuel + 1, bytes => .bytes (bytes.take size) :: piecesWith size fuel (bytes.drop size)

/-- How a reader delivers its bytes. -/
structure Delivery where
  /-- Interruptions before the first byte. -/
  interrupts : Nat
  /-- Most bytes of one read. -/
  maxRead : Option Nat
  /-- Bytes after which the next read fails. -/
  failAfter : Option Nat
  deriving DecidableEq, Repr

/-- A reader that delivers bytes that way.  Reads of no bytes end the data before it
begins. -/
def delivering (d : Delivery) (bytes : List UInt8) : Reader :=
  let interruptions := List.replicate d.interrupts ReadOutcome.interrupted
  let bytes := if d.maxRead = some 0 then [] else bytes
  let pieces (bytes : List UInt8) : List ReadOutcome :=
    piecesWith (d.maxRead.getD bytes.length) bytes.length bytes
  ⟨interruptions ++
    match d.failAfter with
    | some n =>
      if n ≤ bytes.length then pieces (bytes.take n) ++ [.failed "stream broke"] else pieces bytes
    | none => pieces bytes⟩

/-- A reader that delivers bytes without incident. -/
def ofBytes (bytes : List UInt8) : Reader := delivering ⟨0, none, none⟩ bytes

end Reader

end ModuleHost
