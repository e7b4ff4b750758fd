import Multilife.Foundations.LittleEndian
import Multilife.Server.Protocol

/-!
# The client's parsers

`ClientParsers.h` and `ClientParsers.cpp`: `parseUdpWorldPacket` for one datagram, and
`tryParseServerStatsMessage` for the stream of statistics, which takes the buffer by
reference and returns what is left of it.
-/

namespace Multilife.Client

open LittleEndian proto

/-- `UdpCellUpdate`. -/
structure UdpCellUpdate where
  localX : UInt8
  localY : UInt8
  alive : Bool
  owner : UInt64
  deriving DecidableEq, Repr

/-- `ParsedUdpWorldPacket`. -/
structure ParsedUdpWorldPacket where
  seqNum : UInt32
  fullSnapshot : Bool
  chunkX : Int32
  chunkY : Int32
  cells : List UdpCellUpdate
  deriving DecidableEq, Repr

/-- The loop over the cell entries, from the cursor on. -/
def readCells : ℕ → List UInt8 → List UdpCellUpdate
  | 0, _ => []
  | n + 1, cursor =>
    { localX := cursor.getD 0 0
      localY := cursor.getD 1 0
      alive := cursor.getD 2 0 != 0
      owner := readLE UInt64 cursor 3 } :: readCells n (cursor.drop kUdpCellEntry)

def parseUdpWorldPacket (datagram : List UInt8) : Option ParsedUdpWorldPacket :=
  if datagram.length < kUdpHeader then none
  else
    let seqNum := readLE UInt32 datagram kOffSeqNum
    let flags := datagram.getD kOffFlags 0
    let chunkX := readLE Int32 datagram kOffChunkX
    let chunkY := readLE Int32 datagram kOffChunkY
    let cellCount := readLE UInt16 datagram kOffCellCount
    let expectedSize := kUdpHeader + cellCount.toNat * kUdpCellEntry
    if expectedSize > datagram.length then none
    else some
      { seqNum := seqNum
        fullSnapshot := flags == kFlagFull
        chunkX := chunkX
        chunkY := chunkY
        cells := readCells cellCount.toNat (datagram.drop kUdpHeader) }

/-! ## Statistics -/

/-- `ServerStatsEntry`. -/
structure ServerStatsEntry where
  playerId : UInt64
  balance : UInt64
  liveCells : UInt64
  deriving DecidableEq, Repr

/-- `ParsedServerStatsMessage`. -/
structure ParsedServerStatsMessage where
  generation : UInt32
  players : List ServerStatsEntry
  deriving DecidableEq, Repr

/-- The loop over the entries, from the cursor on. -/
def readStatsEntries : ℕ → List UInt8 → List ServerStatsEntry
  | 0, _ => []
  | n + 1, cursor =>
    { playerId := readLE UInt64 cursor 0
      balance := readLE UInt64 cursor 8
      liveCells := readLE UInt64 cursor 16 } :: readStatsEntries n (cursor.drop kServerStatsEntry)

/-- `tryParseServerStatsMessage`: the message, if there is a whole one, and the rest of
the buffer.  Bytes that do not begin a message are skipped. -/
def tryParseServerStatsMessage : List UInt8 → Option ParsedServerStatsMessage × List UInt8
  | [] => (none, [])
  | type :: buffer =>
    let streamBuffer := type :: buffer
    if streamBuffer.length < kServerStatsHeader then (none, streamBuffer)
    else if type ≠ kMsgServerStats then tryParseServerStatsMessage buffer
    else
      let generation := readLE UInt32 streamBuffer 1
      let playerCount := readLE UInt16 streamBuffer 5
      let packetSize := kServerStatsHeader + playerCount.toNat * kServerStatsEntry
      if streamBuffer.length < packetSize then (none, streamBuffer)
      else
        (some
          { generation := generation
            players := readStatsEntries playerCount.toNat (streamBuffer.drop kServerStatsHeader) },
          streamBuffer.drop packetSize)

/-- The parser only removes bytes. -/
theorem length_tryParseServerStatsMessage_le (streamBuffer : List UInt8) :
    (tryParseServerStatsMessage streamBuffer).2.length ≤ streamBuffer.length := by
  induction streamBuffer with
  | nil => exact le_refl _
  | cons type buffer ih =>
    rw [tryParseServerStatsMessage]
    dsimp only
    split_ifs with hshort hnoise hpartial
    · exact le_refl _
    · exact ih.trans (Nat.le_succ _)
    · exact le_refl _
    · rw [List.length_drop]
      exact Nat.sub_le _ _

/-- Whoever finds a message removes at least its header. -/
theorem length_of_tryParseServerStatsMessage {streamBuffer rest : List UInt8}
    {msg : ParsedServerStatsMessage} (h : tryParseServerStatsMessage streamBuffer = (some msg, rest)) :
    rest.length + kServerStatsHeader ≤ streamBuffer.length := by
  induction streamBuffer with
  | nil => cases h
  | cons type buffer ih =>
    rw [tryParseServerStatsMessage] at h
    dsimp only at h
    split_ifs at h with hshort hnoise hpartial
    · cases h
    · exact (ih h).trans (Nat.le_succ _)
    · cases h
    · cases h
      rw [List.length_drop]
      omega

end Multilife.Client
