/-
Images: modules as bytes.

`Description.image` writes a module in the binary format: a header, and then sections of
items, of which those without items are left out.

* `Description.contentsStart` and `Description.itemStart` say where in the image a section
  and an item of it begin.
-/
import ModuleHost.Value.Bytes
import ModuleHost.Wasm.Module

namespace ModuleHost

namespace Image

/-- Unsigned LEB128; `fuel` bounds the number of bytes. -/
def unsignedWith : (fuel n : Nat) → List UInt8
  | 0, n => [UInt8.ofNat n]
  | fuel + 1, n =>
    if n < 128 then [UInt8.ofNat n]
    else UInt8.ofNat (n % 128 + 128) :: unsignedWith fuel (n / 128)

/-- Unsigned LEB128 of a 32-bit number. -/
def unsigned (n : Nat) : List UInt8 := unsignedWith 5 n

/-- Signed LEB128; `fuel` bounds the number of bytes. -/
def signedWith : (fuel : Nat) → Int → List UInt8
  | 0, n => [UInt8.ofNat (n % 128).toNat]
  | fuel + 1, n =>
    if -64 ≤ n ∧ n < 64 then [UInt8.ofNat (n % 128).toNat]
    else UInt8.ofNat ((n % 128).toNat + 128) :: signedWith fuel (n / 128)

/-- Signed LEB128 of a 32-bit number. -/
def signed (n : Int) : List UInt8 := signedWith 5 n

/-- Signed LEB128 of a 64-bit number. -/
def signedLong (n : Int) : List UInt8 := signedWith 10 n

/-- Items after their number. -/
def vector (items : List (List UInt8)) : List UInt8 := unsigned items.length ++ items.flatten

/-- A name: its bytes after their number. -/
def name (s : String) : List UInt8 :=
  let bytes := s.toUTF8.toList
  unsigned bytes.length ++ bytes

/-- Code of a value type. -/
def valType : ValType → UInt8
  | .i32 => 0x7f
  | .i64 => 0x7e
  | .f32 => 0x7d
  | .f64 => 0x7c
  | .funcref => 0x70
  | .externref => 0x6f

/-- Code of a function type. -/
def funcType (t : FuncType) : List UInt8 :=
  0x60 :: vector (t.params.map ([valType ·])) ++ vector (t.results.map ([valType ·]))

/-- Code of limits. -/
def limits (l : Limits) : List UInt8 :=
  match l.maximum with
  | none => 0 :: unsigned l.minimum
  | some n => 1 :: unsigned l.minimum ++ unsigned n

/-- A function body without locals. -/
def body (code : List UInt8) : List UInt8 :=
  let code := 0 :: code ++ [0x0b]
  unsigned code.length ++ code

/-- The code that returns a constant. -/
def constCode (n : Int32) : List UInt8 := 0x41 :: signed n.toInt

/-- The code of a function of which only the type is described. -/
def unreachableCode : List UInt8 := [0x00]

/-- The code of an argument of the call at the start. -/
def startArg : StartArg → List UInt8
  | .i32 n => constCode n
  | .null => [0xd0, 0x6f]

/-- Whether a global can change. -/
def mutability (isMutable : Bool) : UInt8 := if isMutable then 1 else 0

/-- The code of what a global holds at first. -/
def globalInit : GlobalInit → List UInt8
  | .i32 n => constCode n
  | .i64 n => 0x42 :: signedLong n.toInt
  | .f32 x => 0x43 :: leBytes 4 x.bits.toNat
  | .f64 x => 0x44 :: leBytes 8 x.bits.toNat
  | .null => [0xd0, 0x6f]

/-- The four magic bytes. -/
def magic : List UInt8 := [0x00, 0x61, 0x73, 0x6d]

/-- Magic bytes and version. -/
def header : List UInt8 := magic ++ [0x01, 0x00, 0x00, 0x00]

end Image

namespace Description

open Image

/-- Type of a constant function. -/
def constType : FuncType := ⟨[], [.i32]⟩

/-- A function of the module: its type and its code. -/
structure FuncBody where
  type : FuncType
  code : List UInt8

/-- Index of an imported function among the imported functions. -/
def funcIndex (d : Description) (index : Nat) : Nat :=
  ((d.imports.take index).filter fun i => match i.type with
    | .func _ => true
    | _ => false).length

/-- The function behind an export, unless it is an import. -/
def exportBody (d : Description) : ExportItem → Option FuncBody
  | .const n => some ⟨constType, constCode n⟩
  | .again _ | .memory | .table | .global _ => none
  | .own t => some ⟨t, unreachableCode⟩
  | .relay index =>
    (d.importedFunc? index).map fun t =>
      ⟨t, ((List.range t.params.length).flatMap fun k => 0x20 :: unsigned k) ++
        0x10 :: unsigned (d.funcIndex index)⟩

/-- The function that a slot holds at first. -/
def slotBody : SlotDecl → Option FuncBody
  | .empty => none
  | .const n => some ⟨constType, constCode n⟩
  | .own t => some ⟨t, unreachableCode⟩

/-- The functions that the slots hold at first. -/
def slotBodies (d : Description) : List FuncBody := (d.table.getD []).filterMap slotBody

/-- The function in the element segment. -/
def elemBody (d : Description) : Option FuncBody :=
  d.elem.map fun e => ⟨constType, constCode e.const⟩

/-- The function that runs at the start. -/
def startBody (d : Description) : Option FuncBody :=
  d.start.map fun s => ⟨⟨[], []⟩,
    match s with
    | .unreachable => unreachableCode
    | .call index args =>
      args.flatMap startArg ++ 0x10 :: unsigned (d.funcIndex index) ++
      ((d.importedFunc? index).map fun t => List.replicate t.results.length 0x1a).getD []⟩

/-- The functions of the module: exports, slots, element, start. -/
def bodies (d : Description) : List FuncBody :=
  d.exports.filterMap (d.exportBody ·.item) ++ d.slotBodies ++ d.elemBody.toList ++
    d.startBody.toList

/-- The function types in use, each once. -/
def types (d : Description) : List FuncType :=
  (d.imports.filterMap (fun i => match i.type with
    | .func t => some t
    | _ => none) ++ d.bodies.map (·.type)).eraseDups

/-- Code of an import. -/
def importCode (d : Description) (i : Import) : List UInt8 :=
  Image.name i.space ++ Image.name i.name ++
    match i.type with
    | .func t => 0 :: unsigned (d.types.idxOf t)
    | .table l => [1, 0x70] ++ limits l
    | .memory l => 2 :: limits l
    | .global t m => [3, valType t, mutability m]

/-- Codes of the exports, `next` being the index of the next own function. -/
def exportCodes (d : Description) : (next : Nat) → List ExportDecl → List (List UInt8)
  | _, [] => []
  | next, ⟨name, .again index⟩ :: rest =>
    let target : List UInt8 := match d.imports[index]? with
      | some ⟨_, _, .table _⟩ => 1 :: unsigned (d.importedTables index)
      | some ⟨_, _, .memory _⟩ => 2 :: unsigned (d.importedMemories index)
      | some ⟨_, _, .global _ _⟩ => 3 :: unsigned (d.importedGlobals index)
      | _ => 0 :: unsigned (d.funcIndex index)
    (Image.name name ++ target) :: exportCodes d next rest
  | next, ⟨name, .memory⟩ :: rest =>
    (Image.name name ++ 2 :: unsigned (d.importedMemories d.imports.length)) ::
      exportCodes d next rest
  | next, ⟨name, .table⟩ :: rest =>
    (Image.name name ++ 1 :: unsigned (d.importedTables d.imports.length)) ::
      exportCodes d next rest
  | next, ⟨name, .global index⟩ :: rest =>
    (Image.name name ++ 3 :: unsigned (d.importedGlobals d.imports.length + index)) ::
      exportCodes d next rest
  | next, ⟨name, _⟩ :: rest =>
    (Image.name name ++ 0 :: unsigned next) :: exportCodes d (next + 1) rest

/-- Code of an active element segment with one function. -/
def elemCode (slot index : Nat) : List UInt8 :=
  0 :: 0x41 :: signed slot ++ 0x0b :: vector [unsigned index]

/-- Codes of the segments that fill slots, `next` being the index of the next function. -/
def slotCodes : (slot next : Nat) → List SlotDecl → List (List UInt8)
  | _, _, [] => []
  | slot, next, .empty :: rest => slotCodes (slot + 1) next rest
  | slot, next, _ :: rest => elemCode slot next :: slotCodes (slot + 1) (next + 1) rest

/-- Index of the first function that is no import. -/
def firstOwn (d : Description) : Nat := d.funcIndex d.imports.length

/-- Index of the first function that is in a slot at first. -/
def firstSlot (d : Description) : Nat :=
  d.firstOwn + (d.exports.filterMap (d.exportBody ·.item)).length

/-- Index of the function in the element segment. -/
def elemIndex (d : Description) : Nat := d.firstSlot + d.slotBodies.length

/-- Index of the function that runs at the start. -/
def startIndex (d : Description) : Nat := d.elemIndex + d.elemBody.toList.length

/-! ### Sections -/

end Description

/-- The sections of an image. -/
inductive SectionKind where
  | types | imports | functions | tables | memories | globals | exports | start | elements | code
  | data
  deriving DecidableEq, Repr

namespace SectionKind

/-- All sections, in the order in which they come. -/
def all : List SectionKind :=
  [types, imports, functions, tables, memories, globals, exports, start, elements, code, data]

/-- The byte a section begins with. -/
def id : SectionKind → UInt8
  | types => 1
  | imports => 2
  | functions => 3
  | tables => 4
  | memories => 5
  | globals => 6
  | exports => 7
  | start => 8
  | elements => 9
  | code => 10
  | data => 11

end SectionKind

namespace Description

open Image

/-- The items of a section. -/
def items (d : Description) : SectionKind → List (List UInt8)
  | .types => d.types.map funcType
  | .imports => d.imports.map d.importCode
  | .functions => d.bodies.map fun b => unsigned (d.types.idxOf b.type)
  | .tables => d.table.toList.map fun slots => 0x70 :: limits ⟨slots.length, none⟩
  | .memories => d.memory.toList.map limits
  | .globals => d.globals.map fun g =>
    valType g.init.type :: mutability g.isMutable :: globalInit g.init ++ [0x0b]
  | .exports => d.exportCodes d.firstOwn d.exports
  | .start => d.start.toList.map fun _ => unsigned d.startIndex
  | .elements =>
    slotCodes 0 d.firstSlot (d.table.getD []) ++
      d.elem.toList.map fun e => elemCode e.slot d.elemIndex
  | .code => d.bodies.map fun b => body b.code
  | .data => d.data.toList.map fun s =>
    0 :: 0x41 :: signed s.address ++ 0x0b :: unsigned s.bytes.length ++ s.bytes

/-- The contents of a section: its items after their number, or the one index at the start. -/
def contents (d : Description) (k : SectionKind) : List UInt8 :=
  match k with
  | .start => (d.items k).flatten
  | k => vector (d.items k)

/-- The bytes of a section, none when it has no items. -/
def sectionCode (d : Description) (k : SectionKind) : List UInt8 :=
  if (d.items k).isEmpty then []
  else k.id :: unsigned (d.contents k).length ++ d.contents k

/-- The bytes of a module in the binary format. -/
def image (d : Description) : List UInt8 := header ++ SectionKind.all.flatMap d.sectionCode

/-- Where the contents of a section begin. -/
def contentsStart (d : Description) (k : SectionKind) : Nat :=
  header.length + ((SectionKind.all.takeWhile (· ≠ k)).flatMap d.sectionCode).length + 1 +
    (unsigned (d.contents k).length).length

/-- Where an item of a section begins. -/
def itemStart (d : Description) (k : SectionKind) (i : Nat) : Nat :=
  d.contentsStart k + (unsigned (d.items k).length).length + ((d.items k).take i).flatten.length

end Description

end ModuleHost
