/-
Why something that was asked of a session failed.

* `Fault` ends a call: a failed conversion, a trap, an error raised by host code, a
  panic of the host, or a computation that was cut off;
* `LinkError` and `EmbedderError` are what the embedder sees.

A failed conversion keeps its identity on the way out of a module, so the embedder can
tell it from other failures of execution.
-/
import ModuleHost.Value.Failure

namespace ModuleHost

/-- A trap of module code. -/
inductive Trap where
  | unreachable | memoryOutOfBounds | tableOutOfBounds | uninitializedElement | signatureMismatch
  | stackExhausted
  deriving DecidableEq, Repr

/-- The wording of a trap. -/
def Trap.message : Trap → String
  | .unreachable => "wasm trap: wasm `unreachable` instruction executed"
  | .memoryOutOfBounds => "wasm trap: out of bounds memory access"
  | .tableOutOfBounds => "wasm trap: undefined element: out of bounds table access"
  | .uninitializedElement => "wasm trap: uninitialized element"
  | .signatureMismatch => "wasm trap: indirect call type mismatch"
  | .stackExhausted => "wasm trap: call stack exhausted"

/-- Why a call did not return. -/
inductive Fault where
  | marshal (error : ConversionError)
  | trap (trap : Trap)
  | failed (report : Report)
  /-- The host itself gave up. -/
  | panic
  /-- The work was cut off before it was done. -/
  | exhausted
  deriving DecidableEq, Repr

namespace Fault

/-- An error raised by host code, without causes. -/
def text (message : String) : Fault := failed (.of message)

/-- The innermost message. -/
def root : Fault → String
  | marshal e => e.message
  | trap t => t.message
  | failed r => r.root
  | panic | exhausted => ""

/-- Whether the fault is an error that host code can catch. -/
def isError : Fault → Bool
  | marshal _ | trap _ | failed _ => true
  | panic | exhausted => false

/-- All messages. -/
def report : Fault → Report
  | marshal e => .of e.message
  | trap t => .of t.message
  | failed r => r
  | panic | exhausted => .of ""

end Fault

/-- Why a module could not be linked. -/
inductive LinkError where
  /-- An import is missing or of another type, or the instance could not be made. -/
  | unresolved (cause : Report)
  /-- The host table has no such function. -/
  | unknownHostImport (name : String)
  /-- The declaration has another number of parameters. -/
  | arityMismatch (name : String) (expected found : Nat)
  /-- The declaration is not of a function. -/
  | notAFunction (name : String)
  deriving DecidableEq, Repr

namespace LinkError

/-- The wording of a failed link. -/
def message : LinkError → String
  | unresolved cause => cause.top
  | unknownHostImport name => s!"unknown host import `{name}`"
  | arityMismatch name expected found =>
    s!"host import `{name}` takes {expected} parameters, module declares {found}"
  | notAFunction name => s!"host import `{name}` must be a function"

/-- The messages of what caused it. -/
def causes : LinkError → List String
  | unresolved cause => cause.chain
  | _ => []

end LinkError

/-- What the embedder sees of a failure. -/
inductive EmbedderError where
  | notInitialized
  | config (cause : Report)
  | compile (cause : Report)
  | link (error : LinkError)
  | load (error : LoadError)
  | marshal (error : ConversionError)
  | execution (cause : Report)
  | source (text : String)
  deriving DecidableEq, Repr

namespace EmbedderError

/-- The wording of a failure. -/
def message : EmbedderError → String
  | notInitialized => "engine not initialized"
  | config cause => s!"invalid engine configuration: {cause.top}"
  | compile cause => s!"compilation failed: {cause.top}"
  | link error => s!"link failed: {error.message}"
  | load error => s!"deferred load failed: {error.message}"
  | marshal error => s!"marshalling failed: {error.message}"
  | execution cause => s!"execution failed: {cause.top}"
  | source text => s!"reading module source failed: {text}"

/-- The messages of what caused it, the outermost first. -/
def causes : EmbedderError → List String
  | notInitialized => []
  | config cause | compile cause | execution cause => cause.chain
  | link error => error.message :: error.causes
  | load error => error.message :: error.causes
  | marshal error => [error.message]
  | source text => [text]

/-- Sort a fault that came out of a call; a panic or a cut-off is no error. -/
def ofFault : Fault → EmbedderError
  | .marshal e => marshal e
  | f => execution f.report

end EmbedderError

end ModuleHost
