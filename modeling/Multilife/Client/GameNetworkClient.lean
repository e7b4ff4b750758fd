import Multilife.Client.ClientParsers
import Multilife.Client.WorldModel
import Multilife.Foundations.BufferParser
import Multilife.Server.Protocol
import Multilife.Server.Types

/-!
# The client's side of the protocol

`applyDatagram` of `GameNetworkClient.cpp`, with the slot its signal
`worldUpdateReceived` is wired to.  The signal crosses a thread, but a queued
connection delivers in order, so the model sees the updates in the order of the
datagrams.

The functions that write to the TCP socket return what they write.
-/

namespace Multilife.Client

open LittleEndian proto

/-- `GameNetworkClient`: whether TCP is connected, and `m_lastSeqNum`. -/
structure GameNetworkClient where
  isConnected : Bool := true
  lastSeqNum : Option UInt32 := none

/-- The arguments of `worldUpdateReceived`. -/
structure WorldUpdate where
  seqNum : UInt32
  fullSnapshot : Bool
  chunkX : Int32
  chunkY : Int32
  updates : List AliveCell
  deriving DecidableEq, Repr

namespace GameNetworkClient

/-- The update of one parsed cell: a dead cell has owner `0`. -/
def toAliveCell (cell : UdpCellUpdate) : AliveCell where
  x := Int64.ofNat cell.localX.toNat
  y := Int64.ofNat cell.localY.toNat
  owner := if cell.alive then cell.owner else 0

/-- `applyDatagram`: the client, whether a resync request is written to the
socket, and the signal. -/
def applyDatagram (c : GameNetworkClient) (datagram : List UInt8) :
    GameNetworkClient × Bool × Option WorldUpdate :=
  match parseUdpWorldPacket datagram with
  | none => (c, false, none)
  | some parsed =>
    let fullSnapshot := parsed.fullSnapshot
    let resync := match c.lastSeqNum with
      | none => false
      | some last =>
        !fullSnapshot && (let expected := last + 1; parsed.seqNum != expected) && c.isConnected
    ({ c with lastSeqNum := some parsed.seqNum }, resync,
      some
        { seqNum := parsed.seqNum
          fullSnapshot := fullSnapshot
          chunkX := parsed.chunkX
          chunkY := parsed.chunkY
          updates := parsed.cells.map toAliveCell })

/-! ### Writing to the TCP socket -/

/-- The handshake of `onTcpConnected`; `playerId` is `m_playerId`. -/
def onTcpConnected (playerId : PlayerId) : List UInt8 :=
  let handshake := List.replicate kHandshakeSize 0
  patchLE playerId (patchLE kMagic handshake 0) 4

def sendCommand (c : GameNetworkClient) (playerId : PlayerId) (type : UInt8) (x y : Int64) :
    List UInt8 :=
  if !c.isConnected then []
  else [type] ++ writeLE playerId ++ writeLE x ++ writeLE y

def sendPlaceCell (c : GameNetworkClient) (playerId : PlayerId) (x y : Int64) : List UInt8 :=
  c.sendCommand playerId kCmdPlace x y

def sendRemoveCell (c : GameNetworkClient) (playerId : PlayerId) (x y : Int64) : List UInt8 :=
  c.sendCommand playerId kCmdRemove x y

def sendToggleCell (c : GameNetworkClient) (playerId : PlayerId) (x y : Int64) : List UInt8 :=
  c.sendCommand playerId kCmdToggle x y

def sendResync (c : GameNetworkClient) : List UInt8 :=
  if !c.isConnected then [] else [kMsgResyncReq]

/-! ### Reading from the TCP socket -/

/-- `PlayerSnapshot`. -/
structure PlayerSnapshot where
  playerId : UInt64
  balance : UInt64
  liveCells : UInt64
  deriving DecidableEq, Repr

/-- The arguments of `serverStatsUpdated`. -/
structure StatsUpdate where
  generation : UInt32
  players : List PlayerSnapshot
  deriving DecidableEq, Repr

/-- The signal of a parsed message. -/
def toStatsUpdate (parsed : ParsedServerStatsMessage) : StatsUpdate where
  generation := parsed.generation
  players := parsed.players.map fun p => ⟨p.playerId, p.balance, p.liveCells⟩

/-- `tryParseServerStatsMessage`, which takes at least a header off the buffer. -/
def statsParser : BufferParser UInt8 ParsedServerStatsMessage where
  parse := tryParseServerStatsMessage
  shrinks h := lt_of_lt_of_le (Nat.lt_add_of_pos_right (by decide))
    (length_of_tryParseServerStatsMessage h)

/-- `onTcpReadyRead`: `m_tcpReadBuffer` and the signals, when `data` has arrived. -/
def onTcpReadyRead (tcpReadBuffer data : List UInt8) : List UInt8 × List StatsUpdate :=
  let drained := statsParser.drain (tcpReadBuffer ++ data)
  (drained.2, drained.1.map toStatsUpdate)

end GameNetworkClient

/-- A client: the network side and the model it feeds. -/
structure ClientState where
  network : GameNetworkClient := {}
  model : WorldModel := {}

namespace ClientState

/-- One datagram, down to the model. -/
def receive (c : ClientState) (datagram : List UInt8) : ClientState where
  network := (c.network.applyDatagram datagram).1
  model := match (c.network.applyDatagram datagram).2.2 with
    | none => c.model
    | some u => c.model.applyUpdate u.seqNum u.fullSnapshot u.chunkX u.chunkY u.updates

/-- Whether a datagram makes the client ask for a resync. -/
def sendsResync (c : ClientState) (datagram : List UInt8) : Bool :=
  (c.network.applyDatagram datagram).2.1

end ClientState
end Multilife.Client
