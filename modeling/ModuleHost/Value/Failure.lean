/-
Errors as values: what a module holds when something went wrong.

An error value wraps a plain report, a failed conversion or a failed load, and shows
the messages of all of them in one line.
-/
import ModuleHost.Value.Error
import ModuleHost.Deferred.State

namespace ModuleHost

/-- What an error value wraps. -/
inductive Failure where
  | report (report : Report)
  | marshal (error : ConversionError)
  | load (error : LoadError)
  deriving DecidableEq, Repr

namespace Failure

/-- All messages, the outermost first. -/
def chain : Failure → List String
  | report r => r.chain
  | marshal e => [e.message]
  | load e => e.message :: e.causes

/-- All messages on one line. -/
def message (f : Failure) : String := ": ".intercalate f.chain

/-- The outermost message. -/
def top (f : Failure) : String := f.chain.headD ""

/-- Whether a failed conversion is wrapped. -/
def isMarshal : Failure → Bool
  | marshal _ => true
  | _ => false

end Failure

end ModuleHost
