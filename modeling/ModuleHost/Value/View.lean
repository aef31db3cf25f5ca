/-
Snapshots of values.

A view is what an observer sees of a value at one moment, as a finite tree: an array
or object that is already open further up is a back reference, and below twelve open
ones the tree is cut.  Views outlive the values they were taken of.
-/
import ModuleHost.Value.Display

namespace ModuleHost

/-- A snapshot of a value. -/
inductive View where
  | undefined
  | null
  | bool (b : Bool)
  | number (x : Double)
  | text (s : Text)
  | array (items : List View)
  | object (props : List (Text × View))
  | typedArray (element : Element) (offset : Nat) (numbers : List Double)
  | dataView (offset : Nat) (bytes : List UInt8)
  | buffer (bytes : List UInt8)
  | native
  | wrapper (w : Wrapper)
  | linkedModule (name : String)
  | error (message : String)
  | registry (cells : Nat)
  /-- An array or object open further up, 1 for the direct parent. -/
  | cycle (level : Nat)
  /-- An array or object too far down to be shown. -/
  | deep

/-- Text before which a message depends on machine addresses and is cut. -/
def backtraceMark : String := "error while executing at wasm backtrace:"

/-- A message without the part that depends on machine addresses. -/
def withoutBacktrace (message : String) : String :=
  match message.splitOn backtraceMark with
  | before :: _ :: _ => before ++ "<trap>"
  | _ => message

namespace Heap

/-- How many arrays and objects may be open in a snapshot. -/
def viewDepth : Nat := 12

/-- Snapshot of a value inside the arrays and objects `open`, with room for more. -/
def viewIn (h : Heap) : (room : Nat) → (outer : List Target) → Value → View
  | _, _, .undefined => .undefined
  | _, _, .null => .null
  | _, _, .bool b => .bool b
  | _, _, .number x => .number x
  | _, _, .string s => .text s
  | room, outer, .array id =>
    match outer.idxOf? (.array id), room with
    | some k, _ => .cycle (k + 1)
    | none, 0 => .deep
    | none, room + 1 => .array ((h.elements id).map (viewIn h room (.array id :: outer)))
  | room, outer, .object id =>
    match outer.idxOf? (.object id), room with
    | some k, _ => .cycle (k + 1)
    | none, 0 => .deep
    | none, room + 1 =>
      .object ((h.properties id).map fun (k, v) => (k, viewIn h room (.object id :: outer) v))
  | _, _, .typedArray view => .typedArray view.element view.offset (view.toList h)
  | _, _, .dataView view => .dataView view.offset (view.toBytes h)
  | _, _, .buffer id => .buffer (h.bytes id)
  | _, _, .function (.native _) => .native
  | _, _, .function (.wrapper k id) =>
    match h.wrapper? k id with
    | some w => .wrapper w
    | none => .native
  | _, _, .linkedModule id => .linkedModule (h.moduleName id)
  | _, _, .error id => .error (h.failure id).message
  | _, _, .registry id => .registry (h.watchCells id).length

/-- Snapshot of a value. -/
def view (h : Heap) (v : Value) : View := h.viewIn viewDepth [] v

end Heap

end ModuleHost
