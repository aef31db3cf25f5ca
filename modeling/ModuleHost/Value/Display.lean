/-
Texts of values.

* `Heap.display` is what a module prints: an array joins the texts of its elements
  with commas, leaving undefined and null elements out, and is empty inside itself;
* `Heap.describe` is the diagnostic form, which names constructors and writes `[...]`
  for the body of an array or object inside itself;
* `Heap.failure` and `Heap.moduleName` look behind error and module values.

Design notes: the arrays (and objects) being written are passed down as a list, so
each call leaves the caller's list as it was.  Every nested call opens one more
payload that was not open, so the number of payloads bounds the depth.
-/
import ModuleHost.Number.Layout
import ModuleHost.Text.Quoted
import ModuleHost.Heap.Windows
import ModuleHost.Heap.Containers
import ModuleHost.Heap.Watch

namespace ModuleHost

namespace Heap

/-- What an error value wraps. -/
def failure (h : Heap) (error : Nat) : Failure :=
  (h.errors.get? error).getD (.report ⟨"", []⟩)

/-- Name of a linked module. -/
def moduleName (h : Heap) (id : Nat) : String := (h.modules.get? id).getD ""

/-! ### Display -/

/-- The text of a value inside the arrays `joining`. -/
def displayIn (h : Heap) : (fuel : Nat) → (joining : List Nat) → Value → String
  | _, _, .undefined => "undefined"
  | _, _, .null => "null"
  | _, _, .bool b => if b then "true" else "false"
  | _, _, .number x => x.display
  | _, _, .string s => s.toString
  | 0, _, .array _ => ""
  | fuel + 1, joining, .array id =>
    if joining.contains id then ""
    else
      ",".intercalate <| (h.elements id).map fun v =>
        match v with
        | .undefined | .null => ""
        | v => displayIn h fuel (id :: joining) v
  | _, _, .typedArray view => ",".intercalate ((view.toList h).map Double.display)
  | _, _, .dataView _ => "[object DataView]"
  | _, _, .buffer _ => "[object ArrayBuffer]"
  | _, _, .function _ => "function () \x7b [native code] \x7d"
  | _, _, .object _ => "[object Object]"
  | _, _, .linkedModule id => s!"[object Module {h.moduleName id}]"
  | _, _, .error id => (h.failure id).message
  | _, _, .registry _ => "[object FinalizationRegistry]"

/-- The text of a value; a string is its own text, unpaired surrogates included. -/
def display (h : Heap) : Value → Text
  | .string s => s
  | v => Text.ofString (h.displayIn (h.arrays.next + 1) [] v)

/-! ### Diagnostic form -/

/-- Comma-separated items between brackets. -/
def bracketed (opening : String) (items : List String) (closing : String) : String :=
  opening ++ ", ".intercalate items ++ closing

/-- Diagnostic form of a buffer: its size. -/
def describeBuffer (h : Heap) (buffer : Nat) : String := s!"ArrayBuffer({h.byteLength buffer})"

/-- Diagnostic form of a wrapper. -/
def describeWrapper (h : Heap) (k : Keeper) (id : Nat) : String :=
  match h.wrapper? k id with
  | some w => s!"ForeignFunction \x7b closure: {w.closure.toInt}, arity: {w.arity} \x7d"
  | none => ""

/-- Diagnostic form of a function. -/
def describeFunction (h : Heap) : FunctionRef → String
  | .native _ => "HostFunction::Native"
  | .wrapper k id => s!"HostFunction::Module({h.describeWrapper k id})"

/-- Diagnostic form of an error value. -/
def describeError (h : Heap) (id : Nat) : String := s!"HostError({(h.failure id).message})"

/-- Diagnostic form of a value inside the arrays and objects `writing`. -/
def describeIn (h : Heap) : (fuel : Nat) → (writing : List Target) → Value → String
  | _, _, .undefined => "Undefined"
  | _, _, .null => "Null"
  | _, _, .bool b => if b then "Bool(true)" else "Bool(false)"
  | _, _, .number x => s!"Number({x.literal})"
  | _, _, .string s => s!"String({Quoted.string s.toString})"
  | 0, _, .array _ => "Array([...])"
  | fuel + 1, writing, .array id =>
    if writing.contains (.array id) then "Array([...])"
    else bracketed "Array([" ((h.elements id).map (describeIn h fuel (.array id :: writing))) "])"
  | 0, _, .object _ => "Object([...])"
  | fuel + 1, writing, .object id =>
    if writing.contains (.object id) then "Object([...])"
    else
      bracketed "Object(\x7b"
        ((h.properties id).map fun (k, v) =>
          Quoted.string k.toString ++ ": " ++ describeIn h fuel (.object id :: writing) v)
        "\x7d)"
  | _, _, .typedArray view =>
    let buffer := h.describeBuffer view.buffer
    s!"TypedArray(TypedArray \x7b kind: {view.element.name}, buffer: {buffer}, byte_offset: " ++
      s!"{view.offset}, length: {view.length} \x7d)"
  | _, _, .dataView view =>
    let buffer := h.describeBuffer view.buffer
    s!"DataView(DataView \x7b buffer: {buffer}, byte_offset: {view.offset}, byte_length: " ++
      s!"{view.length} \x7d)"
  | _, _, .buffer id => s!"ArrayBuffer({h.describeBuffer id})"
  | _, _, .function f => s!"Function({h.describeFunction f})"
  | _, _, .linkedModule id => s!"Module(DeferredModule({h.moduleName id}))"
  | _, _, .error id => s!"Error({h.describeError id})"
  | _, _, .registry id =>
    let cells := (h.watchCells id).length
    s!"FinalizationRegistry(FinalizationRegistry \x7b cells: {cells} \x7d)"

/-- Diagnostic form of a value. -/
def describe (h : Heap) (v : Value) : String :=
  h.describeIn (h.arrays.next + h.objects.next + 1) [] v

end Heap

end ModuleHost
