/-
The scripted guest: a module whose behaviour scenarios choose.

It exports every function it imports again, under the short name of the namespace and
the function's own name, and the reserved functions that the host calls.  A plan can leave
exports out, or break some: a broken function keeps its parameters, does nothing, and
returns one 64-bit integer.  What runs the guest's scripts is also supplied as imports, in a
namespace of its own, to every module of the session.

* `GuestFunc` lists the reserved functions with their types;
* `GuestPlan.description` is the module to be linked.
-/
import ModuleHost.Session.Linking
import ModuleHost.Session.Exchange

namespace ModuleHost

/-- A function of the guest's own. -/
inductive GuestFunc where
  | main | callback | release | listLength | listRead
  /-- Runs a closure with so many parameters. -/
  | closure (arity : Fin 4)
  | allocate (w : TextWidth)
  | write (w : TextWidth)
  | read (w : TextWidth)
  /-- Allocates a string of this exact length. -/
  | allocateExact (length : Nat)
  | bump | grow | fastCalls | heapTop | callTable | trap | pair
  deriving DecidableEq, Repr

namespace GuestFunc

/-- Export name. -/
def name : GuestFunc → String
  | main => "$invokeMain"
  | callback => "$invokeCallback"
  | release => "$releaseClosure"
  | listLength => "$listLength"
  | listRead => "$listRead"
  | closure arity => s!"$closureCall{arity.val}"
  | allocate w => "$stringAllocate" ++ w.digit
  | write w => "$stringWrite" ++ w.digit
  | read w => "$stringRead" ++ w.digit
  | allocateExact length => s!"$stringAllocate1_{length}"
  | bump => "$bump"
  | grow => "grow"
  | fastCalls => "fastCalls"
  | heapTop => "heap"
  | callTable => "callTable"
  | trap => "trap"
  | pair => "pair"

/-- Parameter and result types. -/
def type : GuestFunc → FuncType
  | main => ⟨[.externref], []⟩
  | callback | release => ⟨[.i32], []⟩
  | listLength | allocate _ | grow | callTable => ⟨[.i32], [.i32]⟩
  | listRead => ⟨[.i32, .i32], [.externref]⟩
  | closure arity => ⟨[.i32, .i32] ++ List.replicate arity.val .externref, [.externref]⟩
  | write _ => ⟨[.i32, .i32, .i32], []⟩
  | read _ => ⟨[.i32, .i32], [.i32]⟩
  | allocateExact length => ⟨List.replicate length .i32, [.i32]⟩
  | bump | fastCalls | heapTop => ⟨[], [.i32]⟩
  | trap => ⟨[], []⟩
  | pair => ⟨[], [.i32, .f64]⟩

/-- Functions that every guest has, before and after the exact allocators. -/
def reserved : List GuestFunc :=
  [main, callback, release, listLength, listRead] ++ (List.finRange 4).map closure ++
    [allocate .oneByte, allocate .twoByte, write .oneByte, write .twoByte, read .oneByte,
      read .twoByte]

/-- Functions that run scripts, with the names under which they are supplied. -/
def environment : List (String × GuestFunc) :=
  [("main", main), ("callback", callback), ("release", release)] ++
    (List.finRange 4).map fun arity => (s!"closure{arity.val}", closure arity)

/-- Namespace of the functions that run scripts. -/
def environmentSpace : String := "env"

/-- Functions with which scenarios look into a guest. -/
def probes : List GuestFunc := [bump, grow, fastCalls, heapTop, callTable, trap, pair]

end GuestFunc

/-- Choices about the guest. -/
structure GuestPlan where
  pages : Limits
  /-- Whether it imports the string builtins. -/
  builtins : Bool
  /-- Further functions it imports. -/
  extra : List (String × String × FuncType)
  /-- Exports it does not have. -/
  missing : List String
  /-- Exports that are broken. -/
  broken : List String
  /-- Lengths with an allocator of their own. -/
  exact : List Nat

namespace GuestPlan

/-- The guest when nothing is said. -/
def standard : GuestPlan := ⟨⟨1, some 4⟩, true, [], [], [], []⟩

/-- The guest's own functions, in the order of their exports. -/
def functions (p : GuestPlan) : List GuestFunc :=
  GuestFunc.reserved ++ p.exact.map .allocateExact ++ GuestFunc.probes

/-- The own function of an export name. -/
def function? (p : GuestPlan) (name : String) : Option GuestFunc :=
  p.functions.find? (·.name = name)

/-- Tag of the supplied function that runs scripts. -/
def scriptName (name : String) : String := GuestFunc.environmentSpace ++ "." ++ name

/-- The function that runs scripts with a tag. -/
def scriptFunction? (tag : String) : Option GuestFunc :=
  (GuestFunc.environment.find? fun (n, _) => scriptName n = tag).map (·.2)

/-- What is supplied for the guest. -/
def supplied : List Supplied :=
  GuestFunc.environment.map fun (name, f) =>
    ⟨GuestFunc.environmentSpace, name, .supplied (scriptName name) f.type⟩

/-- Type of an own function in this guest: a broken one returns one 64-bit integer. -/
def typeOf (p : GuestPlan) (f : GuestFunc) : FuncType :=
  if p.broken.contains f.name then ⟨f.type.params, [.i64]⟩ else f.type

/-- Imports, each with the name under which it is exported again. -/
def imports (p : GuestPlan) : List (String × Import) :=
  HostFunc.all.map (fun i => ("host." ++ i.name, ⟨HostFunc.space, i.name, .func i.type⟩)) ++
    (if p.builtins then
      TextBuiltin.all.map fun b => ("js." ++ b.name, ⟨TextBuiltin.space, b.name, .func b.type⟩)
    else []) ++
    [(deferredSpace ++ "." ++ loadModuleName,
      ⟨deferredSpace, loadModuleName, .func Func.loadModule.type⟩)] ++
    p.extra.map fun (space, name, type) =>
      ("x." ++ space ++ "." ++ name, ⟨space, name, .func type⟩)

/-- Exports, without those that are left out. -/
def exports (p : GuestPlan) : List ExportDecl :=
  let own : List ExportDecl := p.functions.map fun f => ⟨f.name, .own (p.typeOf f)⟩
  let windows : List ExportDecl := [⟨"memory", .memory⟩, ⟨"table", .table⟩]
  let again : List ExportDecl := p.imports.mapIdx fun i (name, _) => ⟨name, .again i⟩
  (own ++ windows).filter (fun e => !p.missing.contains e.name) ++ again

/-- What the guest's table holds at first. -/
def slots : List SlotDecl := [.const 35, .empty, .empty, .own ⟨[.i32], [.i32]⟩]

/-- The guest as a module. -/
def description (p : GuestPlan) : Description :=
  { Description.empty with
    imports := p.imports.map (·.2)
    memory := some p.pages
    table := some slots
    exports := p.exports }

/-- Type of the import that is exported again under a name. -/
def importType? (p : GuestPlan) (name : String) : Option FuncType :=
  match p.imports.lookup name with
  | some ⟨_, _, .func t⟩ => some t
  | _ => none

end GuestPlan

/-- Name under which the guest exports a function again; a bare name is one of the host
table. -/
def reexportName (name : String) : String :=
  if name.toList.contains '.' then name else "host." ++ name

end ModuleHost
