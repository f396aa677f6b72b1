import TextVectors.Encoder

/-!
# Permits and threads over time

At most so many encodes are under way at once as there are permits. An encode
takes one permit when it is handed over to the threads and gives it back when it
ends, also if nobody waits for it any more. The threads take up encodes in the
order in which these are handed over, and there are only so many of them: with
more permits than threads, an encode may hold its permit and wait for a thread.

The state holds the time, the free permits, the ends of the encodes that hold
the others, and the batches that the provider is still to receive from encodes
under way. When an encode ends is known as soon as it is handed over, for those
that are handed over later do not count for it.
-/

namespace TextVectors

namespace Service

/-- The number of threads on which encodes run. -/
def threads : Nat := 512

/-- A batch that the provider receives at a time. -/
structure Sighting where
  time : Nat
  texts : List String
  deriving DecidableEq, Repr

/-- The encodes under way at a time, counted in milliseconds. -/
structure State where
  now : Nat
  free : Nat
  /-- When the encodes that hold a permit end, whether a thread has taken them up or not. -/
  running : List Nat
  /-- What the provider receives and has not been told of yet. -/
  upcoming : List Sighting
  deriving DecidableEq, Repr

namespace State

/-- The state before the first request. -/
def initial (permits : Nat) : State :=
  ⟨0, permits, [], []⟩

/-- The state at a later time: encodes that have ended by then have given back their permits. -/
def advance (state : State) (time : Nat) : State :=
  { state with
    now := time
    free := state.free + (state.running.filter (· ≤ time)).length
    running := state.running.filter (time < ·) }

/-- When the next encode can take a permit, if ever: now if one is free, and otherwise when the
first of the encodes under way ends. -/
def admission (state : State) : Option Nat :=
  if 0 < state.free then some state.now else state.running.min?

/-- When a thread takes up an encode that is handed over now: at once, if fewer encodes are under
way than there are threads, and otherwise when so many of them have ended that a thread is free. -/
def pickup (state : State) : Nat :=
  if state.running.length < threads then state.now
  else (state.running.mergeSort (· ≥ ·)).getD (threads - 1) state.now

/-- An encode that is handed over now takes a permit until it ends. -/
def start (state : State) (elapsed : Nat) (calls : List Call) : State :=
  { state with
    free := state.free - 1
    running := (state.pickup + elapsed) :: state.running
    upcoming := state.upcoming ++ calls.map fun call => ⟨state.pickup + call.after, call.texts⟩ }

/-- The batches that the provider has received by now and has not been told of yet. -/
def seen (state : State) : List Sighting :=
  state.upcoming.filter (·.time ≤ state.now)

/-- The state once the provider's batches up to now have been told. -/
def forget (state : State) : State :=
  { state with upcoming := state.upcoming.filter (state.now < ·.time) }

end State

end Service

end TextVectors
