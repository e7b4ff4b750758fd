import Multilife.Foundations.StreamReader
import Multilife.Server.BoostNetworkManager

/-!
# The reads of a session

`Session::start` and `Session::readNextMessage` as a reader of the TCP stream.  Each
`async_read` asks for exactly as many bytes as its buffer holds and completes when they
are there, however many packets they come in.  Which buffer is filled next depends on
the type byte; what the manager does with a handshake or a message is
`BoostNetworkManager.start` and `BoostNetworkManager.readNextMessage`.
-/

namespace Multilife

open LittleEndian proto

/-- The buffer that the pending `async_read` of a session fills. -/
inductive SessionBuffer where
  | handshakeBuf
  | msgTypeBuf
  /-- The body of a command with this type byte. -/
  | cmdBodyBuf (msgType : UInt8)
  /-- The socket is closed. -/
  | closed
  deriving DecidableEq, Repr

/-- What a session has read. -/
inductive SessionRead where
  | handshake (handshakeBuf : List UInt8)
  | message (msg : ClientMessage)
  deriving DecidableEq, Repr

/-- The `switch` over the type byte of a command. -/
def commandTypeOf (msgType : UInt8) : CommandType :=
  if msgType = kCmdPlace then .PlaceCell
  else if msgType = kCmdRemove then .RemoveCell
  else .ToggleCell

/-- The completion handler of the handshake read. -/
def onHandshake (handshakeBuf : List UInt8) : SessionBuffer × List SessionRead :=
  (if readLE UInt32 handshakeBuf 0 ≠ kMagic then .closed else .msgTypeBuf,
    [.handshake handshakeBuf])

/-- The completion handler of the type byte. -/
def onMsgType (msgTypeBuf : List UInt8) : SessionBuffer × List SessionRead :=
  let msgType := msgTypeBuf.headD 0
  if msgType = kMsgResyncReq then (.msgTypeBuf, [.message .resync])
  else if msgType = kCmdPlace ∨ msgType = kCmdRemove ∨ msgType = kCmdToggle then
    (.cmdBodyBuf msgType, [])
  else (.msgTypeBuf, [.message (.unknown msgType)])

/-- The completion handler of a command body. -/
def onCmdBody (msgType : UInt8) (cmdBodyBuf : List UInt8) : SessionBuffer × List SessionRead :=
  let cmdPlayer := readLE UInt64 cmdBodyBuf 0
  let x := readLE Int64 cmdBodyBuf 8
  let y := readLE Int64 cmdBodyBuf 16
  (.msgTypeBuf, [.message (.command (commandTypeOf msgType) cmdPlayer x y)])

/-- A session as a reader. -/
def sessionReader : StreamReader SessionBuffer UInt8 SessionRead where
  demand
    | .handshakeBuf => kHandshakeSize
    | .msgTypeBuf => 1
    | .cmdBodyBuf _ => kCommandSize - 1
    | .closed => 0
  react
    | .handshakeBuf, bytes => onHandshake bytes
    | .msgTypeBuf, bytes => onMsgType bytes
    | .cmdBodyBuf msgType, bytes => onCmdBody msgType bytes
    | .closed, _ => (.closed, [])

/-- What a new session makes of the fragments that have arrived. -/
def readFragments (fragments : List (List UInt8)) :
    StreamReader.Outcome SessionBuffer UInt8 SessionRead :=
  fragments.foldl sessionReader.feed ⟨[], .handshakeBuf, []⟩

end Multilife
