/-
Timers and microtasks of a session.

Timers are fired by whoever drives the session, by asking for what is due at an
instant; nothing here reads a clock.  `takeDue` hands out the earliest due timer, of
two due at the same instant the one with the smaller handle: a timeout leaves the
queue, an interval is put back one period after the instant of the call.

Times are nanoseconds.  An instant past `latestInstant` cannot be formed; asking for
one is an overflow, on which a timer is not scheduled and an interval that was due is
lost.
-/
namespace ModuleHost

/-- Nanoseconds in a millisecond. -/
def millisecond : Nat := 1000000

/-- Shortest interval period, so that no interval fires forever at one instant. -/
def shortestPeriod : Nat := millisecond

/-- The longest duration. -/
def maxDuration : Nat := Nat.pow 2 64 * 1000000000 - 1

/-- The last instant that can be formed. -/
def latestInstant : Nat := Nat.pow 2 63 * 1000000000 - 1

/-- A pending timer. -/
structure Timer where
  handle : Int32
  due : Nat
  period : Option Nat
  callback : Int32
  deriving DecidableEq, Repr

/-- Pending timers, in the order of their handles, and queued microtasks. -/
structure TimerQueue where
  nextHandle : Int32
  timers : List Timer
  microtasks : List Int32
  deriving DecidableEq, Repr

namespace TimerQueue

/-- The queue of a new session. -/
def empty : TimerQueue := ⟨1, [], []⟩

instance : Inhabited TimerQueue := ⟨empty⟩

/-- The handle after a handle; after the largest one they start again at 1. -/
def handleAfter (handle : Int32) : Int32 := max (handle + 1) 1

/-- Timers with one put in by its handle, in place of one that has the same handle. -/
def insert (t : Timer) : List Timer → List Timer
  | [] => [t]
  | u :: rest =>
    if t.handle < u.handle then t :: u :: rest
    else if t.handle = u.handle then t :: rest
    else u :: insert t rest

/-- The instant a duration after another, unless it cannot be formed. -/
def later? (now duration : Nat) : Option Nat :=
  if now + duration ≤ latestInstant then some (now + duration) else none

/-- Put a timer under the next handle. -/
def schedule (q : TimerQueue) (due : Nat) (period : Option Nat) (callback : Int32) :
    Int32 × TimerQueue :=
  (q.nextHandle,
    { q with
      nextHandle := handleAfter q.nextHandle
      timers := insert ⟨q.nextHandle, due, period, callback⟩ q.timers })

/-- Fire a callback once after a delay; none on overflow. -/
def addTimeout? (q : TimerQueue) (now delay : Nat) (callback : Int32) :
    Option (Int32 × TimerQueue) :=
  (later? now delay).map fun due => q.schedule due none callback

/-- Fire a callback after each period; none on overflow. -/
def addInterval? (q : TimerQueue) (now period : Nat) (callback : Int32) :
    Option (Int32 × TimerQueue) :=
  let period := max period shortestPeriod
  (later? now period).map fun due => q.schedule due (some period) callback

/-- Whether a timer is pending under a handle. -/
def isPending (q : TimerQueue) (handle : Int32) : Bool := q.timers.any (·.handle = handle)

/-- Take a timer out of the queue. -/
def cancel (q : TimerQueue) (handle : Int32) : TimerQueue :=
  { q with timers := q.timers.filter (·.handle ≠ handle) }

/-- The earlier of two timers, by due time and then by handle. -/
def earlier (t u : Timer) : Timer :=
  if u.due < t.due ∨ (u.due = t.due ∧ u.handle < t.handle) then u else t

/-- The earliest of some timers. -/
def earliest? : List Timer → Option Timer
  | [] => none
  | t :: rest => some (rest.foldl earlier t)

/-- The timer that fires next at an instant. -/
def nextDue? (q : TimerQueue) (now : Nat) : Option Timer :=
  earliest? (q.timers.filter (·.due ≤ now))

/-- Earliest due time of all timers. -/
def firstDue? (q : TimerQueue) : Option Nat := (q.timers.map (·.due)).min?

/-- What asking for a due timer gives. -/
inductive Popped where
  /-- Nothing is due. -/
  | nothing
  /-- A callback to run. -/
  | fired (callback : Int32)
  /-- An interval was due whose next instant cannot be formed. -/
  | overflow
  deriving DecidableEq, Repr

/-- Take the earliest timer that is due; an interval comes back one period later. -/
def takeDue (q : TimerQueue) (now : Nat) : Popped × TimerQueue :=
  match q.nextDue? now with
  | none => (.nothing, q)
  | some t =>
    let rest := q.cancel t.handle
    match t.period with
    | none => (.fired t.callback, rest)
    | some period =>
      match later? now period with
      | none => (.overflow, rest)
      | some due => (.fired t.callback, { rest with timers := insert { t with due } rest.timers })

/-- Queue a microtask. -/
def addMicrotask (q : TimerQueue) (callback : Int32) : TimerQueue :=
  { q with microtasks := q.microtasks ++ [callback] }

/-- The microtask that was queued first. -/
def takeMicrotask (q : TimerQueue) : Option Int32 × TimerQueue :=
  match q.microtasks with
  | [] => (none, q)
  | callback :: rest => (some callback, { q with microtasks := rest })

end TimerQueue

end ModuleHost
