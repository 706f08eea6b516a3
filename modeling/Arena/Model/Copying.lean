import Arena.Lib.Runs

/-!
# Copying messages

`relay` of `gateway/cmd/arena-gateway/main.go`, one direction of a connection: it reads messages
from one websocket and writes them to the other, chunk by chunk. An event is what a call into
the websocket library or of `Wait` answers. Closing the writer of a message completes it on the
destination, on the way out after an error as well.
-/

namespace Arena.Model

open Arena.Lib

/-- `websocket.MessageType`. -/
inductive MessageType where
  | text | binary
  deriving DecidableEq

structure Message where
  type : MessageType
  content : List UInt8
  deriving DecidableEq

/-- The error of a `Read`: none, `io.EOF` or another one. -/
inductive ReadErr where
  | none | eof | failed
  deriving DecidableEq

/-- Where `relay` is: the call that it makes next, with its variables. -/
inductive RelayPhase where
  /-- `src.Reader` -/
  | idle
  /-- `dst.Writer` -/
  | opening (type : MessageType)
  /-- `reader.Read` -/
  | reading (type : MessageType)
  /-- `bucket.Wait`, with the bytes and the error of the `Read` -/
  | waiting (type : MessageType) (chunk : List UInt8) (readErr : ReadErr)
  /-- `writer.Write` -/
  | writing (type : MessageType) (chunk : List UInt8) (readErr : ReadErr)
  /-- `counter.Add` -/
  | adding (type : MessageType) (written : ℕ) (writeErr : Bool) (readErr : ReadErr)
  /-- `writer.Close` after the last chunk -/
  | closing (type : MessageType)
  /-- `_ = writer.Close()` -/
  | aborting (type : MessageType)
  | returned
  deriving DecidableEq

/-- The call in progress, and what the two websockets have seen. -/
structure RelayState where
  phase : RelayPhase := .idle
  /-- The bytes of the current message that were read, and those that were written. -/
  read : List UInt8 := []
  sent : List UInt8 := []
  /-- The messages that the source gave completely, and those completed on the destination. -/
  received : List Message := []
  completed : List Message := []
  written : ℕ := 0
  counter : ℕ := 0

inductive RelayEvent where
  | reader (type : Option MessageType)
  | writer (ok : Bool)
  | read (chunk : List UInt8) (readErr : ReadErr)
  | wait (ok : Bool)
  | write (written : ℕ) (ok : Bool)
  | add
  | close (ok : Bool)

/-- What follows a chunk, by the error of its `Read`. -/
def RelayPhase.after (type : MessageType) : ReadErr → RelayPhase
  | .none => .reading type
  | .eof => .closing type
  | .failed => .aborting type

/-- The message that a `Read` completes. -/
def ReadErr.completes (type : MessageType) (content : List UInt8) : ReadErr → List Message
  | .eof => [⟨type, content⟩]
  | _ => []

/-- `relay`, call by call. The buffer has 32 KiB, and a `Write` that succeeds writes everything. -/
def RelayState.step (s : RelayState) (e : RelayEvent) : Option RelayState :=
  match s.phase, e with
  | .idle, .reader none => some { s with phase := .returned }
  | .idle, .reader (some type) => some { s with phase := .opening type, read := [], sent := [] }
  | .opening type, .writer ok => some { s with phase := if ok then .reading type else .returned }
  | .reading type, .read chunk readErr =>
    if chunk.length ≤ 32 * 1024 then some
      { s with
        phase := if chunk = [] then .after type readErr else .waiting type chunk readErr
        read := s.read ++ chunk
        received := s.received ++ readErr.completes type (s.read ++ chunk) }
    else none
  | .waiting type chunk readErr, .wait ok => some
      { s with phase := if ok then .writing type chunk readErr else .aborting type }
  | .writing type chunk readErr, .write written ok =>
    if written ≤ chunk.length ∧ (ok → written = chunk.length) then some
      { s with
        phase := .adding type written (!ok) readErr
        sent := s.sent ++ chunk.take written
        written := s.written + written }
    else none
  | .adding type written writeErr readErr, .add => some
      { s with
        phase := if writeErr then .aborting type else .after type readErr
        counter := s.counter + written }
  | .closing type, .close ok => some
      { s with
        phase := if ok then .idle else .returned
        completed := if ok then s.completed ++ [⟨type, s.sent⟩] else s.completed }
  | .aborting type, .close ok => some
      { s with
        phase := .returned
        completed := if ok then s.completed ++ [⟨type, s.sent⟩] else s.completed }
  | _, _ => none

def relay : Machine RelayState RelayEvent := ⟨RelayState.step⟩

/-- The bytes written that the counter has not got yet. -/
def RelayState.uncounted (s : RelayState) : ℕ :=
  match s.phase with
  | .adding _ written _ _ => written
  | _ => 0

end Arena.Model
