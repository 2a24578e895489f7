import PySOA.Lib.GreedyCuts
import PySOA.Lib.Utf8
import PySOA.Common.Errors

/-! The handler that sends log records to Syslog, in packets of a limited length. -/
namespace PySOA
open Utf8 (Text)

inductive OverflowBehavior
  | fragment
  | truncate
  deriving DecidableEq

/-- The identifier of a handler, which is text or bytes. -/
inductive Ident
  | text (t : Text)
  | bytes (b : Bytes)

structure SyslogHandler where
  maximumLength : ℕ
  overflow : OverflowBehavior
  ident : Option Ident := none
  appendNul : Bool := true

/-- What `getMessage` raises, and whether that is an instance of `TypeError` or `ValueError`, which have
subclasses such as `UnicodeDecodeError`. -/
structure MessageError where
  error : Exc
  isTypeOrValueError : Bool
  isTypeOrValueError_of_cls : ∀ {cls message}, error = .exception cls message →
    cls = "TypeError" ∨ cls = "ValueError" → isTypeOrValueError = true

/-- A record as the handler sees it: the text that its formatter makes of it, its encoded priority and
its own message. Each of the two texts can fail. -/
structure LogRecord where
  formatted : Except Exc Text
  priority : ℕ
  getMessage : Except MessageError Text

namespace Syslog

/-- `text.encode('utf-8')`, which is strict. -/
def encodeUtf8 (t : Text) : Except Exc Bytes :=
  if t.any Utf8.isSurrogate then .error (.exception "UnicodeEncodeError" "surrogates not allowed")
  else .ok (Utf8.encode t)

/-- The `start` of the error of `b.decode('utf-8')`, if that fails: behind the longest part from the
front that can be decoded. -/
def errorStart (b : Bytes) : Option ℕ :=
  if (Utf8.decode b).isSome then none
  else some (Nat.findGreatest (fun k => (Utf8.decode (b.take k)).isSome) b.length)

/-- The place at which `b[:limit]` ends and `b[limit:]` starts. -/
def cutPlace (b : Bytes) (limit : ℤ) : ℕ :=
  if 0 ≤ limit then limit.toNat else b.length - limit.natAbs

/-- `_cleanly_slice_encoded_string`. -/
def cleanlySliceEncodedString (encodedString : Bytes) (lengthLimit : ℤ) : Bytes × Bytes :=
  let sliced := encodedString.take (cutPlace encodedString lengthLimit)
  let remaining := encodedString.drop (cutPlace encodedString lengthLimit)
  match errorStart sliced with
  | none => (sliced, remaining)
  | some start => (sliced.take start, sliced.drop start ++ remaining)

/-- What is the same in all fragments of a record. -/
structure Frame where
  head : Bytes
  startOfMessage : Bytes
  suffix : Bytes
  chunkLengthLimit : ℤ

/-- The number of a fragment behind the first one, and the text around it. -/
def continuation (i : ℕ) : Bytes :=
  if 1 < i then ascii "(cont'd #" ++ (Bytes.decimal i ++ ascii ") ...") else []

def continued : Bytes := ascii "... (cont'd)"

def subtractor (i : ℕ) : ℤ := if 1 < i then 14 + (Bytes.decimal i).length else 0

namespace Frame
variable (frame : Frame)

/-- The body of the loop: the packet number `i`, and the message that remains. -/
def fragment (i : ℕ) (remainingMessage : Bytes) : Bytes × Bytes :=
  let cut := cleanlySliceEncodedString remainingMessage (frame.chunkLengthLimit - subtractor i)
  let chunk := continuation i ++ cut.1
  let chunk := if cut.2 ≠ [] then chunk ++ continued else chunk
  (frame.head ++ (frame.startOfMessage ++ (chunk ++ frame.suffix)), cut.2)

/-- The loop from the packet number `i` on, as far as the fuel goes. -/
def loop : ℕ → ℕ → Bytes → Option (List Bytes)
  | _, _, [] => some []
  | 0, _, _ => none
  | fuel+1, i, remainingMessage =>
    let out := frame.fragment i remainingMessage
    (loop fuel (i+1) out.2).map (out.1 :: ·)

end Frame

/-- `text.index(part)`. -/
def index? (part text : Text) : Option ℕ :=
  (List.range (text.length+1)).find? fun i => part.isPrefixOf (text.drop i)

/-- Where the message starts in the formatted record: what stands in front of it, and what is to be cut
into chunks. If the message cannot be located, something is made up. -/
def splitRecord (formattedMessage : Text) (getMessage : Except MessageError Text) :
    Except Exc (Text × Text) :=
  let madeUp := (formattedMessage.take 30 ++ [32], formattedMessage.drop 30)
  match getMessage with
  | .ok message =>
    match index? (message.take 40) formattedMessage with
    | some index => .ok (formattedMessage.take index, formattedMessage.drop index)
    | none => .ok madeUp
  | .error e => if e.isTypeOrValueError then .ok madeUp else .error e.error

-- The error of a text that cannot be decoded is a `ValueError`.
example (formattedMessage : Text) (message : String) :
    splitRecord formattedMessage (.error ⟨.exception "UnicodeDecodeError" message, true, fun _ _ => rfl⟩) =
      .ok (formattedMessage.take 30 ++ [32], formattedMessage.drop 30) := rfl

end Syslog

/-- How a record is to be sent: in one packet, as it is or cut off at a limit, or in fragments. -/
inductive SyslogPlan
  | whole (packet : Bytes)
  | truncated (messageLengthLimit : ℤ) (packet : Bytes)
  | fragments (frame : Syslog.Frame) (toChunk : Bytes)

namespace SyslogHandler
open Syslog
variable (handler : SyslogHandler)

def identBytes : Except Exc Bytes :=
  match handler.ident with
  | some (.text t) => encodeUtf8 t
  | some (.bytes b) => .ok b
  | none => .ok []

def suffixBytes : Bytes := if handler.appendNul then [0] else []

def priorityBytes (record : LogRecord) : Bytes :=
  ascii "<" ++ (Bytes.decimal record.priority ++ ascii ">")

/-- The part of `emit` in front of its loop. -/
def plan (record : LogRecord) : Except Exc SyslogPlan := do
  let formattedMessage ← record.formatted
  let encodedMessage ← encodeUtf8 formattedMessage
  let ident ← handler.identBytes
  let head := priorityBytes record ++ ident
  let messageLengthLimit : ℤ := handler.maximumLength - head.length - handler.suffixBytes.length
  if (encodedMessage.length : ℤ) < messageLengthLimit then
    return .whole (head ++ (encodedMessage ++ handler.suffixBytes))
  else
    match handler.overflow with
    | .truncate =>
      return .truncated messageLengthLimit
        (head ++ ((cleanlySliceEncodedString encodedMessage messageLengthLimit).1 ++ handler.suffixBytes))
    | .fragment =>
      let (startOfMessage, toChunk) ← splitRecord formattedMessage record.getMessage
      let startOfMessageBytes ← encodeUtf8 startOfMessage
      let toChunkBytes ← encodeUtf8 toChunk
      return .fragments {
        head
        startOfMessage := startOfMessageBytes
        suffix := handler.suffixBytes
        chunkLengthLimit := messageLengthLimit - startOfMessageBytes.length - 12 } toChunkBytes

/-- `emit`: the packets that are sent, or the exception that is handed to `handleError`, if the fuel
suffices for the loop. -/
def emit (fuel : ℕ) (record : LogRecord) : Option (Except Exc (List Bytes)) :=
  match handler.plan record with
  | .error e => some (.error e)
  | .ok (.whole packet) => some (.ok [packet])
  | .ok (.truncated _ packet) => some (.ok [packet])
  | .ok (.fragments frame toChunk) => (frame.loop fuel 1 toChunk).map .ok

end SyslogHandler
end PySOA
