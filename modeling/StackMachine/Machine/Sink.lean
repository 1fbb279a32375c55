import StackMachine.ByteString

/-!
Where output goes.  A sink accepts octets up to its capacity, if it has one; a write that does not fit is
cut to the room that is left, and then it fails.  Any request may also fail at the other end.
-/

set_option autoImplicit false

namespace StackMachine

/-- A failure at the other end: how much of the piece at hand still gets there, and what it says. -/
structure Sink.Outage where
  taken : Nat
  message : String

/-- The octets written so far, in pieces with the latest first, and what the sink can take. -/
structure Sink where
  pieces : List ByteString
  size : Nat
  capacity : Option Nat
  flushes : Bool
  /-- How often the sink was asked to write or to deliver. -/
  requests : Nat
  /-- The failures at the other end, by the number of requests before. -/
  outage? : Nat → Option Sink.Outage

/-- Why output fails. -/
inductive Sink.Failure where
  | full
  | flushRefused
  | outage (message : String)
  deriving DecidableEq

def Sink.Failure.message : Sink.Failure → String
  | full => "sink full"
  | flushRefused => "flush refused"
  | outage message => message

namespace Sink

/-- A sink that takes everything. -/
def unlimited : Sink := ⟨[], 0, none, true, 0, fun _ => none⟩

/-- All octets written so far. -/
def written (s : Sink) : ByteString := s.pieces.foldr (fun piece before => before ++ piece) .empty

/-- How many more octets fit; `none` if there is no limit. -/
def room (s : Sink) : Option Nat := s.capacity.map (· - s.size)

/-- The part of a piece that fits. -/
def fit (s : Sink) (piece : ByteString) : ByteString :=
  match s.room with
  | none => piece
  | some room => piece.take room

/-- Takes all of `piece`. -/
def accept (s : Sink) (piece : ByteString) : Sink :=
  { s with
    pieces := piece :: s.pieces
    size := s.size + piece.length
    requests := s.requests + 1 }

/-- Writes a text, or as much of it as gets through. -/
def write (s : Sink) (text : String) : Sink × Option Failure :=
  let piece := ByteString.ofString text
  let fitting := s.fit piece
  match s.outage? s.requests with
  | some outage => (s.accept (fitting.take outage.taken), some (.outage outage.message))
  | none => (s.accept fitting, if fitting.length = piece.length then none else some .full)

/-- Asks for all output to be delivered. -/
def flush (s : Sink) : Sink × Option Failure :=
  ({ s with requests := s.requests + 1 },
    match s.outage? s.requests with
    | some outage => some (.outage outage.message)
    | none => if s.flushes then none else some .flushRefused)

end Sink

end StackMachine
