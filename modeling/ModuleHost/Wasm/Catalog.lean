/-
Modules that are known by their images.

A `Catalog` lists modules with their images, and `Catalog.parse` reads an image by
looking it up.  Bytes that are no module are told apart by how they begin: they end
before the eight bytes of the header do, or they do not begin with the magic bytes.
-/
import ModuleHost.Value.Bytes
import ModuleHost.Wasm.Validity

namespace ModuleHost

/-- Modules that are known by their images. -/
structure Catalog where
  modules : List (List UInt8 × Description)

namespace Catalog

/-- The error for bytes that are no valid module. -/
def malformed (f : Flaw) : Report := ⟨"failed to parse WebAssembly module", [f.text]⟩

/-- Number in hexadecimal. -/
def hexText (n : Nat) : String := "0x" ++ String.ofList (Nat.toDigits 16 n)

/-- A byte in hexadecimal, on a line of its own. -/
def byteLine (b : UInt8) : String :=
  s!"    {hexText b.toNat},\n"

/-- The complaint about a wrong beginning. -/
def badMagic (found : List UInt8) : String :=
  "magic header not detected: bad magic number - expected=[\n" ++
    String.join (Image.magic.map byteLine) ++ "] actual=[\n" ++
    String.join (found.map byteLine) ++ "]"

/-- What is wrong with a version other than that of modules. -/
def badVersion (version : Nat) : Flaw :=
  if version < Nat.pow 2 16 then ⟨0, s!"unknown binary version: {hexText version}"⟩
  else ⟨4, s!"unknown binary version: {hexText version}"⟩

/-- Why bytes are no module. -/
def complaint (bytes : List UInt8) : Flaw :=
  if bytes.length < 4 then ⟨0, "unexpected end-of-file"⟩
  else if bytes.take 4 ≠ Image.magic then ⟨0, badMagic (bytes.take 4)⟩
  else if bytes.length < 8 then ⟨0, "unexpected end-of-file"⟩
  else badVersion (ofLeBytes ((bytes.drop 4).take 4))

/-- Read an image. -/
def parse (c : Catalog) (bytes : List UInt8) : Except Report Description :=
  if bytes = Image.header then .ok .empty
  else
    match c.modules.lookup bytes with
    | some d => do
      d.checkDeclarations.mapError malformed
      return d
    | none => .error (malformed (complaint bytes))

end Catalog

end ModuleHost
