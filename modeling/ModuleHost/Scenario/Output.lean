/-
What a scenario answers.

An `Output` is the result of a step as a tree, a `Problem` is why a step failed, and an
`Entry` is one line of the journal that is kept while a step runs.  An `Answer` is a
step's outcome together with its journal.
-/
import ModuleHost.Session.State

namespace ModuleHost

/-- Result of a step. -/
inductive Output where
  | nothing
  | truth (b : Bool)
  | int (n : Int)
  | word (s : String)
  | number (x : Double)
  | single (x : Single)
  | view (v : View)
  | list (items : List Output)
  | record (fields : List (String × Output))

namespace Output

/-- The hexadecimal digit of a number below 16. -/
def hexDigit (n : Nat) : Char := Nat.digitChar n

/-- Bytes in hexadecimal, two digits each. -/
def hexText (bytes : List UInt8) : String :=
  String.ofList <| bytes.flatMap fun b => [hexDigit (b.toNat / 16), hexDigit (b.toNat % 16)]

/-- Bytes. -/
def bytes (b : List UInt8) : Output := word (hexText b)

/-- A natural number. -/
def nat (n : Nat) : Output := int n

/-- A 32-bit word. -/
def int32 (n : Int32) : Output := int n.toInt

/-- A text, unpaired surrogates included. -/
def text (s : Text) : Output := view (.text s)

/-- An output, if there is one. -/
def optional (o : Option Output) : Output := o.getD nothing

/-- Several words. -/
def words (ws : List String) : Output := list (ws.map word)

/-- A value of a module, as an observer sees it; a reference without a host value is not shown. -/
def ofVal (h : Heap) : Val → Output
  | .i32 n => int32 n
  | .i64 n => word (toString n.toInt)
  | .f32 x => single x
  | .f64 x => number x
  | .ref (.host v) => view (h.view v)
  | .ref .null => nothing
  | .ref .foreign => nothing

/-- Results of a call: none, one, or a list. -/
def ofResults (h : Heap) : List Val → Output
  | [] => nothing
  | [v] => ofVal h v
  | vs => list (vs.map (ofVal h))

end Output

/-- Why a step, or a whole scenario, failed. -/
inductive Problem where
  | error (e : EmbedderError)
  /-- The host itself gave up. -/
  | panic
  /-- The work was cut off before it was done. -/
  | cutOff

/-- Sort a fault that ended a step. -/
def Problem.ofFault : Fault → Problem
  | .panic => .panic
  | .exhausted => .cutOff
  | f => .error (.ofFault f)

/-- What a scenario shows of a failure: the innermost message of one of execution, else the
outermost message of what the failure wraps. -/
def EmbedderError.detail : EmbedderError → String
  | .notInitialized => EmbedderError.notInitialized.message
  | .config r | .compile r => r.top
  | .link (.unresolved r) => if r.top = backtraceMark then r.root else r.top
  | .link e => e.message
  | .load e => e.message
  | .marshal e => e.message
  | .execution r => r.root
  | .source text => text

/-- A line of the journal. -/
inductive Entry where
  /-- Something the session noted. -/
  | event (e : Event)
  /-- The guest was called. -/
  | guest (part : String) (args : List Output)
  /-- A function that the embedder supplied was called. -/
  | supplied (tag : String) (args : List Output)
  /-- A step of a guest script is over. -/
  | step (outcome : Except Problem Output)

/-- Outcome of a step and what was noted meanwhile. -/
structure Answer where
  outcome : Except Problem Output
  journal : List Entry

end ModuleHost
