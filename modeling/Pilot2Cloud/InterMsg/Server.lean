import Pilot2Cloud.InterMsg.Framing
import Pilot2Cloud.Platform.Memcpy

/-!
# The server of messages between processes

The server watches the connections of its clients.  It copies the messages that
it has read completely, and keeps the rest for the next read of the same
connection in an array for each index of its list of connections.
-/

namespace Pilot2Cloud
namespace InterMsg

open Foundation Words Memory Platform

/-- `PROCESS_MAX`. -/
def processMax : Nat := 8

/-- `UNSOCKET_BUFFER_LENGTH`. -/
def unsocketBufferLength : Nat := 65000

/-- The size of an array in `g_buffer`. -/
def rowLength : Nat := 0x10100

/-- The variables of `unsocket_server_entry`, with `g_buffer` and
`g_ulBufferLen`.  The clients are in `watch_fd_list` from the index 1 on. -/
structure MsgServer where
  watchFdList : List (Option Nat)
  gBuffer : List Block
  gBufferLen : List Nat
  buffer : Block

namespace MsgServer

/-- The global arrays hold zeros, the local one has not been written. -/
def initial : MsgServer where
  watchFdList := List.replicate (processMax + 1) none
  gBuffer :=
    List.replicate processMax (List.replicate rowLength (some 0))
  gBufferLen := List.replicate processMax 0
  buffer := Block.alloc unsocketBufferLength

/-- The first index at which no connection is watched. -/
def freeIndex (server : MsgServer) : Option Nat :=
  (List.range' 1 processMax).find? fun ci =>
    server.watchFdList[ci]? == some none

/-- A new connection is watched if there is room for it. -/
def accept (server : MsgServer) (newCliFd : Nat) : MsgServer :=
  match server.freeIndex with
  | some ci =>
      { server with
        watchFdList := server.watchFdList.set ci (some newCliFd) }
  | none => server

/-- No more bytes come from a client. -/
def disconnect (server : MsgServer) (ci : Nat) : MsgServer :=
  { server with watchFdList := server.watchFdList.set ci none }

/-- `g_ulBufferLen[ci]`. -/
def bufferLen (server : MsgServer) (ci : Nat) : Except Fault Nat :=
  match server.gBufferLen[ci]? with
  | some len => .ok len
  | none => .error .readPastEnd

/-- `g_buffer[ci]`. -/
def row (server : MsgServer) (ci : Nat) : Except Fault Block :=
  match server.gBuffer[ci]? with
  | some row => .ok row
  | none => .error .readPastEnd

/-- Bytes are read from a client and put behind the ones that were kept: the
server, the array `pcBuf` and `ulBufLen`. -/
def gather (server : MsgServer) (ci : Nat) (bytes : List UInt8) :
    Except Fault (MsgServer × Block × Nat) := do
  let buffer ← server.buffer.write 0 bytes
  let len ← server.bufferLen ci
  if 0 < len then do
    let row ← server.row ci
    let row ← pfMemcpy row len (some bytes) bytes.length
    return ({ server with
      buffer := buffer
      gBuffer := server.gBuffer.set ci row }, row, wrap (len + bytes.length))
  else return ({ server with buffer := buffer }, buffer, bytes.length)

/-- The bytes from an offset of `pcBuf` on are kept. -/
def keep (server : MsgServer) (ci : Nat) (pcBuf : Block) (inRow : Bool)
    (msgOffset bufLen : Nat) : Except Fault MsgServer :=
  if msgOffset ≠ bufLen then do
    let row ← server.row ci
    let row ←
      (if inRow then row.copyWithin 0 msgOffset (bufLen - msgOffset)
      else row.copyCells 0 pcBuf msgOffset (bufLen - msgOffset))
    return { server with
      gBuffer := server.gBuffer.set ci row
      gBufferLen := server.gBufferLen.set ci (bufLen - msgOffset) }
  else return { server with gBufferLen := server.gBufferLen.set ci 0 }

/-- Bytes are read from a client: the server and the messages that it copies. -/
def receive (server : MsgServer) (ci : Nat) (bytes : List UInt8) :
    Except Fault (MsgServer × List CopiedMsg) := do
  let len ← server.bufferLen ci
  let (server, pcBuf, bufLen) ← server.gather ci bytes
  let (msgOffset, copied) ← unsocketCopyMsg pcBuf bufLen
  let server ← server.keep ci pcBuf (0 < len) msgOffset bufLen
  return (server, copied)

end MsgServer
end InterMsg
end Pilot2Cloud
