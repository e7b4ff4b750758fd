import Mathlib.Data.Nat.Notation

/-!
# The wire protocol

`Protocol.hpp`: message codes, sizes and field offsets, under the names of the
source.  `ClientProtocol.h` repeats the same numbers for the client.
-/

namespace Multilife.proto

def kMagic : UInt32 := 0x4D4C4946

def kHandshakeSize : ℕ := 12

def kCmdPlace : UInt8 := 0x00
def kCmdRemove : UInt8 := 0x01
def kCmdToggle : UInt8 := 0x02
def kCommandSize : ℕ := 25

def kMsgResyncReq : UInt8 := 0x10

def kMsgServerStats : UInt8 := 0x20
def kServerStatsHeader : ℕ := 7
def kServerStatsEntry : ℕ := 24

def kUdpHeader : ℕ := 15
def kUdpCellEntry : ℕ := 11
def kMaxUdpPayload : ℕ := 1400
def kMaxCellsPerPacket : ℕ := (kMaxUdpPayload - kUdpHeader) / kUdpCellEntry

def kOffSeqNum : ℕ := 0
def kOffFlags : ℕ := 4
def kOffChunkX : ℕ := 5
def kOffChunkY : ℕ := 9
def kOffCellCount : ℕ := 13

def kFlagDelta : UInt8 := 0x00
def kFlagFull : UInt8 := 0x01

theorem kMaxCellsPerPacket_pos : 0 < kMaxCellsPerPacket := by decide

/-- A packet of the greatest size fits in a datagram. -/
theorem packet_fits {n : ℕ} (h : n ≤ kMaxCellsPerPacket) :
    kUdpHeader + n * kUdpCellEntry ≤ kMaxUdpPayload := by
  have hmax : kUdpHeader + kMaxCellsPerPacket * kUdpCellEntry ≤ kMaxUdpPayload := by decide
  exact Nat.le_trans (Nat.add_le_add_left (Nat.mul_le_mul_right _ h) _) hmax

end Multilife.proto
