/-
Progress of a deferred load, and why one failed.

A request goes `idle → fetching → compiling → linking → linked`; from every state
that is not final it may go to `failed`.  `LoadState.canAdvance` is that relation.
-/
namespace ModuleHost

/-- An error with its causes, the outermost message first. -/
structure Report where
  top : String
  causes : List String
  deriving DecidableEq, Repr

namespace Report

/-- An error without causes. -/
def of (message : String) : Report := ⟨message, []⟩

/-- All messages, the outermost first. -/
def chain (r : Report) : List String := r.top :: r.causes

/-- All messages on one line. -/
def message (r : Report) : String := ": ".intercalate r.chain

/-- The innermost message. -/
def root (r : Report) : String := r.causes.getLastD r.top

end Report

/-- Progress of one deferred load request. -/
inductive LoadState where
  | idle | fetching | compiling | linking | linked | failed
  deriving DecidableEq, Repr

namespace LoadState

/-- Name of the state. -/
def name : LoadState → String
  | idle => "Idle"
  | fetching => "Fetching"
  | compiling => "Compiling"
  | linking => "Linking"
  | linked => "Linked"
  | failed => "Failed"

/-- Whether a load in this state is over. -/
def isTerminal : LoadState → Bool
  | linked | failed => true
  | _ => false

/-- Whether a load may go from one state to the other. -/
def canAdvance : LoadState → LoadState → Bool
  | idle, fetching | fetching, compiling | compiling, linking | linking, linked => true
  | state, failed => !state.isTerminal
  | _, _ => false

end LoadState

/-- Why a deferred load failed. -/
inductive LoadError where
  /-- The session has no loader. -/
  | noLoader
  /-- The loader refused the request. -/
  | fetch (cause : Report)
  /-- Reading a streamed source failed. -/
  | source (text : String)
  /-- The bytes do not compile. -/
  | compile (cause : Report)
  /-- Linking against the primary instance failed. -/
  | link (cause : Report)
  /-- The state does not allow the step. -/
  | invalidTransition (before after : LoadState)
  deriving DecidableEq, Repr

namespace LoadError

/-- The wording of a failed load. -/
def message : LoadError → String
  | noLoader => "no deferred module loader configured"
  | fetch cause => s!"fetch failed: {cause.message}"
  | source text => s!"reading module source failed: {text}"
  | compile cause => s!"compilation failed: {cause.message}"
  | link cause => s!"link failed: {cause.message}"
  | invalidTransition before after =>
    s!"invalid load transition {before.name} -> {after.name}"

/-- The messages of what caused the failure, the outermost first. -/
def causes : LoadError → List String
  | fetch cause | compile cause | link cause => cause.chain
  | source text => [text]
  | noLoader | invalidTransition _ _ => []

end LoadError

end ModuleHost
