import Mathlib.Tactic.Common
import KTools.Lib.Bytes

/-!
# The basic mode of the serial interface

A message goes over the serial line as a frame: a start character, the bytes of the message, and a stop
character. Bytes that look like one of the five special characters are sent as an escape character and a
substitute (`serialBmSendMsg`). The receiver reads what the line has by now into a buffer, parses the buffer from
its start, and keeps what is left behind the end of a message for the next call (`serialBmRecvMsg`).

The line is the list of the bytes that will come, and the events say what each `poll` and `read` does: how many
bytes a `read` returns is up to the line.
-/

namespace KTools.Serial.BasicMode
open KTools.Lib.Bytes

def bmStart : UInt8 := 0xA0
def bmStop : UInt8 := 0xA5
def bmHandshake : UInt8 := 0xA6
def bmEscape : UInt8 := 0xAA

def serialBmMaxMsgSize : Nat := 47
def serialBmMaxBufferSize : Nat := 250

/-! ### Sending -/

/-- The special characters with their escapes. -/
def characters : List (UInt8 × UInt8) :=
  [(bmStart, 0xB0), (bmStop, 0xB5), (bmHandshake, 0xB6), (bmEscape, 0xBA), (0x1B, 0x3B)]

def serialBmGetEscapedChar (c : UInt8) : UInt8 :=
  ((characters.find? fun x => x.1 == c).map Prod.snd).getD c

def serialBmGetUnescapedChar (c : UInt8) : UInt8 :=
  ((characters.find? fun x => x.2 == c).map Prod.fst).getD c

/-- What is sent for one byte. -/
def escaped (c : UInt8) : List UInt8 :=
  let tmp := serialBmGetEscapedChar c
  if tmp ≠ c then [bmEscape, tmp] else [tmp]

/-- The bytes that `serial_bm_send_msg` writes. -/
def serialBmSendMsg (msg : List UInt8) : List UInt8 := bmStart :: (msg.flatMap escaped ++ [bmStop])

/-! ### Parsing -/

inductive MsgState where
  | none
  | inProgress
  | done
  deriving DecidableEq

/-- `struct serial_bm_parse_ctx`; `msg` are the first `msg_len` bytes of the message. Before the first start
character, `msg_len` and `escape` are not read. -/
structure ParseCtx where
  state : MsgState
  msg : List UInt8
  maxLen : Nat
  escape : Bool
  deriving DecidableEq

/-- How the loop goes on behind a byte. -/
inductive ParseStep where
  | next
  | finished
  | tooLong
  deriving DecidableEq

/-- One byte in `serial_bm_parse_buffer`. A message that gets too long within an escape sequence is given up;
at a plain byte the loop is left, and the message stays in progress. -/
def parseByte (ctx : ParseCtx) (c : UInt8) : ParseCtx × ParseStep :=
  if c = bmStart then ({ ctx with state := .inProgress, escape := false, msg := [] }, .next)
  else if ctx.state ≠ .inProgress then (ctx, .next)
  else if ctx.escape = true then
    let tmp := serialBmGetUnescapedChar c
    if tmp = c then ({ ctx with state := .none }, .next)
    else if ctx.maxLen ≤ ctx.msg.length then ({ ctx with state := .none }, .next)
    else ({ ctx with msg := ctx.msg ++ [tmp], escape := false }, .next)
  else if c = bmEscape then ({ ctx with escape := true }, .next)
  else if c = bmStop then ({ ctx with state := .done }, .finished)
  else if c = bmHandshake then (ctx, .next)
  else if ctx.maxLen ≤ ctx.msg.length then (ctx, .tooLong)
  else ({ ctx with msg := ctx.msg ++ [c] }, .next)

/-- The loop from the byte `i` on. It returns the number of bytes parsed, or -1. -/
def parseFrom (i : Nat) : List UInt8 → ParseCtx → Int × ParseCtx
  | [], ctx => (i, ctx)
  | c :: rest, ctx =>
    match parseByte ctx c with
    | (ctx, .next) => parseFrom (i + 1) rest ctx
    | (ctx, .finished) => (i + 1, ctx)
    | (ctx, .tooLong) => (-1, ctx)

def serialBmParseBuffer (data : List UInt8) (ctx : ParseCtx) : Int × ParseCtx := parseFrom 0 data ctx

/-! ### Receiving -/

/-- `struct serial_bm_recv_ctx`. -/
structure RecvCtx where
  buffer : Nat → UInt8
  bufferSize : Nat
  maxBufferSize : Nat

/-- What `poll` and `read` do in one turn: nothing comes in time (or `poll` fails, which counts as that), `read`
fails, or it returns so many bytes, or all that there are. -/
inductive Event where
  | timeout
  | error
  | read (n : Nat)
  deriving DecidableEq

/-- The bytes still to come, and the events. -/
structure Line where
  stream : List UInt8
  events : List Event

/-- How a call ends: with a message, which may be empty; without one; with an error of `read`; or behind the end
of the buffer, where the count of `read` wraps around. -/
inductive RecvEnd where
  | message (msg : List UInt8)
  | timeout
  | error
  | overrun
  deriving DecidableEq

structure Received where
  result : RecvEnd
  recv : RecvCtx
  line : Line

/-- The bytes in the buffer. -/
def RecvCtx.content (r : RecvCtx) : List UInt8 := slice r.buffer 0 r.bufferSize

/-- A read into the buffer, behind what is in it. -/
def RecvCtx.fill (r : RecvCtx) (bytes : List UInt8) : RecvCtx :=
  { r with buffer := store r.buffer r.bufferSize bytes, bufferSize := r.bufferSize + bytes.length }

/-- `buffer` and `buffer_size` behind the parse. `rv` is compared as a `size_t`, and taken off as it is. -/
def RecvCtx.consume (r : RecvCtx) (rv : Int) : RecvCtx :=
  match rv with
  | .ofNat n =>
    if n < r.bufferSize then
      { r with
        buffer := store r.buffer 0 (slice r.buffer n (r.bufferSize - n))
        bufferSize := r.bufferSize - n }
    else { r with bufferSize := r.bufferSize - n }
  | .negSucc n => { r with bufferSize := r.bufferSize + (n + 1) }

/-- What a turn of the loop does with the bytes that it has read. -/
def recvTurn (r : RecvCtx) (ctx : ParseCtx) (bytes : List UInt8) : RecvCtx × ParseCtx :=
  let r := r.fill bytes
  let (rv, ctx) := serialBmParseBuffer r.content ctx
  (r.consume rv, ctx)

/-- The loop of `serial_bm_recv_msg`, one event a turn; when there are no more events, nothing comes in time. -/
def recvLoop (stream : List UInt8) (r : RecvCtx) (ctx : ParseCtx) : List Event → Received
  | [] => ⟨.timeout, r, ⟨stream, []⟩⟩
  | .timeout :: rest => ⟨.timeout, r, ⟨stream, rest⟩⟩
  | .error :: rest => ⟨.error, r, ⟨stream, rest⟩⟩
  | .read n :: rest =>
    if r.maxBufferSize < r.bufferSize then ⟨.overrun, r, ⟨stream, rest⟩⟩
    else
      let count := min n (r.maxBufferSize - r.bufferSize)
      let (r, ctx) := recvTurn r ctx (stream.take count)
      if ctx.state = .done then ⟨.message ctx.msg, r, ⟨stream.drop count, rest⟩⟩
      else recvLoop (stream.drop count) r ctx rest

def serialBmRecvMsg (r : RecvCtx) (maxLen : Nat) (line : Line) : Received :=
  recvLoop line.stream r ⟨.none, [], maxLen, false⟩ line.events

/-- Call after call, as long as the buffer is not overrun. -/
def recvMsgs (maxLen : Nat) : Nat → RecvCtx → Line → List RecvEnd × RecvCtx × Line
  | 0, r, line => ([], r, line)
  | calls + 1, r, line =>
    let x := serialBmRecvMsg r maxLen line
    if x.result = .overrun then ([x.result], x.recv, x.line)
    else
      let (ends, r, line) := recvMsgs maxLen calls x.recv x.line
      (x.result :: ends, r, line)

/-- The context as `serial_bm_send_request` sets it up; the buffer is whatever was on the stack. -/
def RecvCtx.start (buffer : Nat → UInt8) : RecvCtx := ⟨buffer, 0, serialBmMaxBufferSize⟩

end KTools.Serial.BasicMode
