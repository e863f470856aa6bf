import SlmodemSipBridge.Support.Rust
import SlmodemSipBridge.Support.Utf8

/-!
# Waiting for a dial command

`wait_for_dial_string`: lines are gathered byte by byte from slmodemd until one
is a `DIAL:` command, while silence is written at each tick.
-/

namespace SlmodemSipBridge.Bridge

open Rust

/-- Maximum bytes of a line from slmodemd. -/
def lineBufLimit : ℕ := 256

/-- The size of the buffer lines are read into. -/
def waitBufferSize : ℕ := 1024

/-- An event of the wait.  A read of `none` is an error, and one of no bytes is
the end of slmodemd's stream. -/
inductive WaitEvent where
  | slRead (read : Option (Chunk waitBufferSize))
  | silenceTick (written : Bool)
  | heartbeat

/-- The dial string of a complete line, if it is a command that has one. -/
def dialCommand (lineBuf : List UInt8) : Option Str :=
  let line := fromUtf8Lossy lineBuf
  if startsWith (lit "DIAL:") line then
    let ds := trim (line.drop (lit "DIAL:").length)
    if ds.isEmpty then none else some ds
  else none

/-- How the wait goes on: with a line begun, with the dial string and the bytes
of the read that follow its line, or not at all. -/
inductive WaitOutcome where
  | waiting (lineBuf : List UInt8)
  | dialled (ds : Str) (tail : List UInt8)
  | closed
  deriving DecidableEq

/-- Gather the bytes of a read. -/
def waitBytes : List UInt8 → List UInt8 → WaitOutcome
  | lineBuf, [] => .waiting lineBuf
  | lineBuf, b :: rest =>
      if b = 10 then
        match dialCommand lineBuf with
        | some ds => .dialled ds rest
        | none => waitBytes [] rest
      else if lineBufLimit < (lineBuf ++ [b]).length then waitBytes [] rest
      else waitBytes (lineBuf ++ [b]) rest

/-- A step of the wait. -/
def waitStep (lineBuf : List UInt8) : WaitEvent → WaitOutcome
  | .slRead none => .closed
  | .slRead (some data) =>
      if data.val = [] then .closed else waitBytes lineBuf data.val
  | .silenceTick written => if written then .waiting lineBuf else .closed
  | .heartbeat => .waiting lineBuf

end SlmodemSipBridge.Bridge
