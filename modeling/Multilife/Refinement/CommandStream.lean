import Multilife.Client.GameNetworkClient
import Multilife.Server.SessionStream

/-!
# The TCP stream of a client

The stream has no lengths: a session knows where a message ends only from its type byte.
What a client writes for a request is read back as that request and leaves the session
waiting for the next type byte (`deliver_request`), whatever bytes the coordinates and
the id consist of.  So the whole stream is read back message by message, in whatever
fragments it arrives (`read_stream`).
-/

namespace Multilife.Client

open LittleEndian proto StreamReader

/-- What a client can ask for; a command names the player it claims to come from. -/
inductive Request where
  | command (type : CommandType) (playerId : PlayerId) (x y : Int64)
  | resync
  deriving DecidableEq, Repr

namespace Request

/-- What the client writes for a request. -/
def bytes (c : GameNetworkClient) : Request → List UInt8
  | .command .PlaceCell playerId x y => c.sendPlaceCell playerId x y
  | .command .RemoveCell playerId x y => c.sendRemoveCell playerId x y
  | .command .ToggleCell playerId x y => c.sendToggleCell playerId x y
  | .resync => c.sendResync

/-- What the session should read. -/
def message : Request → ClientMessage
  | .command type playerId x y => .command type playerId x y
  | .resync => .resync

end Request

/-- The stream of a client: the handshake, then the requests. -/
def stream (c : GameNetworkClient) (playerId : PlayerId) (requests : List Request) : List UInt8 :=
  GameNetworkClient.onTcpConnected playerId ++ requests.flatMap (Request.bytes c)

/-! ## One message -/

theorem onTcpConnected_eq (playerId : PlayerId) :
    GameNetworkClient.onTcpConnected playerId = writeLE kMagic ++ writeLE playerId := by
  have hzeros : List.replicate kHandshakeSize 0 =
      [] ++ (writeLE (0 : UInt32) ++ writeLE (0 : UInt64)) := by decide
  have hmagic : patchLE kMagic (List.replicate kHandshakeSize 0) 0 =
      writeLE kMagic ++ (writeLE (0 : UInt64) ++ []) := by
    rw [patchLE_of_eq [] _ kMagic hzeros List.length_nil, List.nil_append, List.append_nil]
  have hoffset : (writeLE kMagic).length = 4 := length_writeLE kMagic
  rw [GameNetworkClient.onTcpConnected,
    patchLE_of_eq (writeLE kMagic) [] playerId hmagic hoffset, List.append_nil]

@[simp] theorem length_onTcpConnected (playerId : PlayerId) :
    (GameNetworkClient.onTcpConnected playerId).length = kHandshakeSize := by
  rw [onTcpConnected_eq, List.length_append, length_writeLE, length_writeLE]
  rfl

/-- **The handshake.** -/
theorem deliver_handshake (playerId : PlayerId) (rest : List UInt8) :
    sessionReader.deliver .handshakeBuf (GameNetworkClient.onTcpConnected playerId ++ rest) =
      (sessionReader.deliver .msgTypeBuf rest).prepend
        [.handshake (GameNetworkClient.onTcpConnected playerId)] := by
  have hmagic : readLE UInt32 (GameNetworkClient.onTcpConnected playerId) 0 = kMagic := by
    refine readLE_of_eq [] (writeLE playerId) ?_ List.length_nil
    rw [onTcpConnected_eq, List.nil_append]
  have hreact : onHandshake (GameNetworkClient.onTcpConnected playerId) =
      (.msgTypeBuf, [.handshake (GameNetworkClient.onTcpConnected playerId)]) := by
    rw [onHandshake, if_neg (not_not.mpr hmagic)]
  refine deliver_react hreact ?_ (length_onTcpConnected playerId) rest
  rw [length_onTcpConnected]
  decide

variable {c : GameNetworkClient}

/-- The body of a command is read as what was written, whatever its bytes. -/
theorem onCmdBody_eq (type : UInt8) (playerId : PlayerId) (x y : Int64) :
    onCmdBody type (writeLE playerId ++ writeLE x ++ writeLE y) =
      (.msgTypeBuf, [.message (.command (commandTypeOf type) playerId x y)]) := by
  have hid : readLE UInt64 (writeLE playerId ++ writeLE x ++ writeLE y) 0 = playerId :=
    readLE_of_eq [] (writeLE x ++ writeLE y) (by simp) List.length_nil
  have hx : readLE Int64 (writeLE playerId ++ writeLE x ++ writeLE y) 8 = x :=
    readLE_of_eq (writeLE playerId) (writeLE y) (by simp) (length_writeLE playerId)
  have hy : readLE Int64 (writeLE playerId ++ writeLE x ++ writeLE y) 16 = y := by
    refine readLE_of_eq (writeLE playerId ++ writeLE x) [] (by simp) ?_
    rw [List.length_append, length_writeLE, length_writeLE]
    rfl
  rw [onCmdBody, hid, hx, hy]

/-- **A command**: the type byte, then the body. -/
theorem deliver_sendCommand (hc : c.isConnected = true) {type : UInt8}
    (htype : type = kCmdPlace ∨ type = kCmdRemove ∨ type = kCmdToggle) (playerId : PlayerId)
    (x y : Int64) (rest : List UInt8) :
    sessionReader.deliver .msgTypeBuf (c.sendCommand playerId type x y ++ rest) =
      (sessionReader.deliver .msgTypeBuf rest).prepend
        [.message (.command (commandTypeOf type) playerId x y)] := by
  have hbytes : c.sendCommand playerId type x y ++ rest =
      [type] ++ (writeLE playerId ++ writeLE x ++ writeLE y ++ rest) := by
    simp [GameNetworkClient.sendCommand, hc]
  have htyped : onMsgType [type] = (.cmdBodyBuf type, []) := by
    have hnot : type ≠ kMsgResyncReq := by rcases htype with rfl | rfl | rfl <;> decide
    rw [onMsgType, List.headD_cons, if_neg hnot, if_pos htype]
  have hlength : (writeLE playerId ++ writeLE x ++ writeLE y).length = kCommandSize - 1 := by
    rw [List.length_append, List.length_append, length_writeLE, length_writeLE, length_writeLE]
    rfl
  rw [hbytes, deliver_react (r := sessionReader) (s := .msgTypeBuf) htyped Nat.one_pos rfl,
    Outcome.prepend_nil]
  exact deliver_react (onCmdBody_eq type playerId x y) (by rw [hlength]; decide) hlength rest

theorem deliver_sendResync (hc : c.isConnected = true) (rest : List UInt8) :
    sessionReader.deliver .msgTypeBuf (c.sendResync ++ rest) =
      (sessionReader.deliver .msgTypeBuf rest).prepend [.message .resync] := by
  have hbytes : c.sendResync = [kMsgResyncReq] := by simp [GameNetworkClient.sendResync, hc]
  have htyped : onMsgType [kMsgResyncReq] = (.msgTypeBuf, [.message .resync]) := by decide
  rw [hbytes]
  exact deliver_react htyped (by decide) rfl rest

/-- **One request** is read back, and the next type byte is waited for. -/
theorem deliver_request (hc : c.isConnected = true) (r : Request) (rest : List UInt8) :
    sessionReader.deliver .msgTypeBuf (r.bytes c ++ rest) =
      (sessionReader.deliver .msgTypeBuf rest).prepend [.message r.message] := by
  cases r with
  | command type playerId x y =>
    cases type with
    | PlaceCell => exact deliver_sendCommand hc (Or.inl rfl) playerId x y rest
    | RemoveCell => exact deliver_sendCommand hc (Or.inr (Or.inl rfl)) playerId x y rest
    | ToggleCell => exact deliver_sendCommand hc (Or.inr (Or.inr rfl)) playerId x y rest
  | resync => exact deliver_sendResync hc rest

/-! ## The stream -/

/-- **The stream is read back**, in whatever fragments it arrives: the handshake and the
requests, nothing is left over, and a type byte is waited for. -/
theorem read_stream (hc : c.isConnected = true) (playerId : PlayerId) (requests : List Request)
    {fragments : List (List UInt8)} (h : fragments.flatten = stream c playerId requests) :
    readFragments fragments =
      ⟨.handshake (GameNetworkClient.onTcpConnected playerId) ::
        requests.map fun r => .message r.message, .msgTypeBuf, []⟩ := by
  rw [readFragments, foldl_feed_start, h, stream, deliver_handshake, deliver_flatMap (deliver_request hc)]
  rfl

end Multilife.Client
