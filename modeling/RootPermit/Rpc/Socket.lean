import RootPermit.Foundation.Run
import RootPermit.Rpc.Frame

/-!
# Frames on a packet socket

This module embeds `SeqPacketConnection` of `rp-peercred/src/lib.rs`, and `read_frame`
and `write_frame` of `rp-broker-api/src/lib.rs`.  The kernel keeps packets whole and in
order; a receive call takes one packet, and bytes that the buffer has no room for are
gone.  The peer need not use `write_frame`: it may put any packet on the wire.

* `readFrame_packet_eq_ok_iff` — the reader accepts what `decode_frame` accepts, although
  it reads into a buffer that is longer than most packets and shorter than some;
* `frames_in_order` — for every interleaving of writes, foreign packets and reads: each
  packet is judged once, in order and on its own, and what `write_frame` sent is read.
-/

namespace RootPermit
namespace Rpc

open Foundation Protocol

/-! ### One packet -/

/-- The errors of the adapter: those of the kernel, and its own. -/
inductive IoError where
  | os (code : Nat)
  | invalidData (message : String)
  | writeZero (message : String)
  deriving DecidableEq, Repr

inductive SocketError where
  | io (fault : IoError)
  | frame (fault : FrameError)
  | oversizePayload
  deriving DecidableEq, Repr

/-- What `recv` finds. -/
inductive Arrival where
  | packet (bytes : Bytes)
  | endOfStream
  | failed (code : Nat)

/-- `SeqPacketConnection::receive`.  With `MSG_TRUNC` the kernel copies what fits and
returns the length of the whole packet. -/
def receive (arrival : Arrival) (buffer : Bytes) : Except IoError Nat × Bytes :=
  match arrival with
  | .failed code => (.error (.os code), buffer)
  | .endOfStream => (.ok 0, buffer)
  | .packet bytes =>
      let filled := bytes.take buffer.length ++ buffer.drop bytes.length
      if bytes.length > buffer.length then
        (.error (.invalidData "truncated seqpacket frame"), filled)
      else
        (.ok bytes.length, filled)

/-- How `send` ends: the kernel takes at most this many bytes, or refuses. -/
inductive SendEnd where
  | sent (count : Nat)
  | failed (code : Nat)

/-- `SeqPacketConnection::send`: what is on the wire, and the answer. -/
def send (packet : Bytes) : SendEnd → List Bytes × Except IoError Unit
  | .failed code => ([], .error (.os code))
  | .sent count =>
      let sent := (packet.take count).length
      ([packet.take count],
        if sent ≠ packet.length then .error (.writeZero "partial seqpacket write")
        else .ok ())

/-- The buffer has room for the largest frame.  The limit on the declared length is
checked here and again by `decode_frame`. -/
def readFrame (arrival : Arrival) : Except SocketError RpcMessage := do
  let (answer, packet) := receive arrival
    (List.replicate (FRAME_LENGTH_BYTES + MAX_FRAME_PAYLOAD_BYTES) 0)
  let received ← answer.mapError SocketError.io
  rejectIf (received < FRAME_LENGTH_BYTES) (SocketError.frame .tooShort)
  let declared := beValue (packet.take FRAME_LENGTH_BYTES)
  rejectIf (declared > MAX_FRAME_PAYLOAD_BYTES) SocketError.oversizePayload
  rejectIf (received ≠ FRAME_LENGTH_BYTES + declared)
    (SocketError.frame (.lengthMismatch declared (received - FRAME_LENGTH_BYTES)))
  (RpcMessage.decodeFrame (packet.take received)).mapError SocketError.frame

def writeFrame (message : RpcMessage) (ending : SendEnd) :
    List Bytes × Except SocketError Unit :=
  match message.encodeFrame with
  | .error fault => ([], .error (.frame fault))
  | .ok packet =>
      ((send packet ending).1, (send packet ending).2.mapError SocketError.io)

/-! ### What the reader accepts -/

/-- A packet that fits fills the front of the buffer. -/
theorem receive_packet_of_le {bytes buffer : Bytes} (h : bytes.length ≤ buffer.length) :
    receive (.packet bytes) buffer =
      (.ok bytes.length, bytes ++ buffer.drop bytes.length) := by
  rw [receive, if_neg (Nat.not_lt.mpr h), List.take_of_length_le h]

theorem receive_packet_of_lt {bytes buffer : Bytes} (h : buffer.length < bytes.length) :
    (receive (.packet bytes) buffer).1 =
      .error (.invalidData "truncated seqpacket frame") := by
  rw [receive, if_pos h]

theorem RpcMessage.length_le_of_decodeFrame {packet : Bytes} {message : RpcMessage}
    (h : RpcMessage.decodeFrame packet = .ok message) :
    FRAME_LENGTH_BYTES ≤ packet.length ∧
      packet.length ≤ FRAME_LENGTH_BYTES + MAX_FRAME_PAYLOAD_BYTES ∧
      beValue (packet.take FRAME_LENGTH_BYTES) =
        packet.length - FRAME_LENGTH_BYTES := by
  obtain ⟨payload, value, hFrames, -, -⟩ := RpcMessage.decodeFrame_eq_ok_iff.mp h
  obtain ⟨hLength, -, hPrefix⟩ := hFrames.parts
  have hBound := hFrames.2
  omega

/-- The reader accepts what `decode_frame` accepts, and nothing else. -/
theorem readFrame_packet_eq_ok_iff {packet : Bytes} {message : RpcMessage} :
    readFrame (.packet packet) = .ok message ↔
      RpcMessage.decodeFrame packet = .ok message := by
  have hRoom : (List.replicate (FRAME_LENGTH_BYTES + MAX_FRAME_PAYLOAD_BYTES)
      (0 : UInt8)).length = FRAME_LENGTH_BYTES + MAX_FRAME_PAYLOAD_BYTES :=
    List.length_replicate
  by_cases hFits : packet.length ≤ FRAME_LENGTH_BYTES + MAX_FRAME_PAYLOAD_BYTES
  · rw [readFrame, receive_packet_of_le (hFits.trans hRoom.ge)]
    simp only [Except.mapError, ok_bind, bind_eq_ok_iff, rejectIf_eq_ok_iff,
      exists_const, not_lt, not_not, gt_iff_lt, List.take_left]
    constructor
    · rintro ⟨-, -, -, hDecode⟩
      exact mapError_eq_ok_iff.mp hDecode
    · intro hDecode
      obtain ⟨hLong, -, hPrefix⟩ := RpcMessage.length_le_of_decodeFrame hDecode
      rw [List.take_append_of_le_length hLong, hPrefix]
      refine ⟨hLong, by omega, by omega, ?_⟩
      rw [hDecode]
  · have hOver : (receive (.packet packet) (List.replicate
        (FRAME_LENGTH_BYTES + MAX_FRAME_PAYLOAD_BYTES) 0)).1 =
          .error (.invalidData "truncated seqpacket frame") :=
      receive_packet_of_lt (hRoom.trans_lt (Nat.not_le.mp hFits))
    constructor
    · intro hRead
      simp only [readFrame, hOver, Except.mapError, error_bind] at hRead
      cases hRead
    · intro hDecode
      exact absurd (RpcMessage.length_le_of_decodeFrame hDecode).2.1 hFits

/-- A packet that was cut off is not accepted. -/
theorem readFrame_of_cut {message found : RpcMessage} {packet : Bytes} {count : Nat}
    (hEncode : message.encodeFrame = .ok packet)
    (hCut : (packet.take count).length ≠ packet.length) :
    readFrame (.packet (packet.take count)) ≠ .ok found := by
  rw [Ne, readFrame_packet_eq_ok_iff]
  intro hFound
  have hWhole := RpcMessage.length_le_of_decodeFrame
    (RpcMessage.decodeFrame_of_encodeFrame hEncode)
  have hPart := RpcMessage.length_le_of_decodeFrame hFound
  have hCount : FRAME_LENGTH_BYTES ≤ count := by
    have hLength := hPart.1
    rw [List.length_take] at hLength
    omega
  rw [List.take_take, Nat.min_eq_left hCount, hWhole.2.2] at hPart
  omega

/-- What `write_frame` puts on the wire is accepted just when it answers `Ok`. -/
theorem readFrame_of_writeFrame {message : RpcMessage} {ending : SendEnd} {packet : Bytes}
    (h : packet ∈ (writeFrame message ending).1) :
    ((writeFrame message ending).2 = .ok () →
      ∃ found, readFrame (.packet packet) = .ok found ∧ message.SameUpToOrder found) ∧
    ((writeFrame message ending).2 ≠ .ok () →
      ∀ found, readFrame (.packet packet) ≠ .ok found) := by
  unfold writeFrame at h ⊢
  cases hEncode : message.encodeFrame with
  | error fault =>
      rw [hEncode] at h
      exact absurd h List.not_mem_nil
  | ok frame =>
      simp only [hEncode] at h ⊢
      cases ending with
      | failed code => exact absurd h List.not_mem_nil
      | sent count =>
          have hPacket : packet = frame.take count := List.mem_singleton.mp h
          rw [hPacket]
          by_cases hWhole : (frame.take count).length = frame.length
          · have hFrame : frame.take count = frame :=
              (List.take_prefix count frame).eq_of_length hWhole
            rw [hFrame]
            constructor
            · intro _
              exact ⟨message.normal, readFrame_packet_eq_ok_iff.mpr
                (RpcMessage.decodeFrame_of_encodeFrame hEncode),
                message.sameUpToOrder_normal⟩
            · intro hFailed
              refine absurd ?_ hFailed
              simp only [send, hWhole, ne_eq, not_true_eq_false, if_false,
                Except.mapError]
          · constructor
            · intro hSent
              simp only [send, ne_eq, hWhole, not_false_eq_true, if_true,
                Except.mapError] at hSent
              cases hSent
            · intro _ found
              exact readFrame_of_cut hEncode hWhole

/-! ### A connection -/

/-- One direction of a connection: the packets on the wire, and what the reader made of
those that it took. -/
structure Connection where
  wire : List Bytes
  reads : List (Except SocketError RpcMessage)

namespace Connection

def fresh : Connection :=
  ⟨[], []⟩

/-- The writer uses `write_frame`, or sends any packet; the reader uses `read_frame`. -/
inductive Call where
  | writeFrame (message : RpcMessage) (ending : SendEnd)
  | packet (bytes : Bytes)
  | readFrame

/-- What a call puts on the wire. -/
def Call.packets : Call → List Bytes
  | .writeFrame message ending => (Rpc.writeFrame message ending).1
  | .packet bytes => [bytes]
  | .readFrame => []

/-- A reader without a packet waits. -/
def step (connection : Connection) (call : Call) : Connection :=
  match call, connection.wire with
  | .readFrame, packet :: wire =>
      ⟨wire, connection.reads ++ [Rpc.readFrame (.packet packet)]⟩
  | call, wire => ⟨wire ++ call.packets, connection.reads⟩

/-- The packets that were sent in a run. -/
def packets (calls : List Call) : List Bytes :=
  calls.flatMap Call.packets

/-- The packets that were sent are those that were judged and those on the wire. -/
def Accounts (sent : List Bytes) (connection : Connection) : Prop :=
  ∃ taken, sent = taken ++ connection.wire ∧
    connection.reads = taken.map fun packet => Rpc.readFrame (.packet packet)

theorem Accounts.step {sent : List Bytes} {connection : Connection}
    (h : connection.Accounts sent) (call : Call) :
    (connection.step call).Accounts (sent ++ call.packets) := by
  obtain ⟨taken, hSent, hReads⟩ := h
  have hPut : Accounts (sent ++ call.packets)
      ⟨connection.wire ++ call.packets, connection.reads⟩ :=
    ⟨taken, by rw [hSent, List.append_assoc], hReads⟩
  unfold Connection.step
  split
  · rename_i packet wire hWire
    refine ⟨taken ++ [packet], ?_, ?_⟩
    · rw [hSent, hWire, Call.packets, List.append_nil, List.append_assoc,
        List.singleton_append]
    · rw [hReads, List.map_append, List.map_singleton]
  · rename_i wire _
    exact hPut

theorem accounts_run (calls : List Call) :
    (run step fresh calls).Accounts (packets calls) := by
  induction calls using List.reverseRecOn with
  | nil => exact ⟨[], rfl, rfl⟩
  | append_singleton calls call ih =>
      rw [run_concat, packets, List.flatMap_append, List.flatMap_singleton]
      exact ih.step call

end Connection

/-- For every interleaving of writes, of packets that the peer made in any other way,
and of reads: the reader judges the packets one by one, each once and in the order in
which they were sent, and the packets that it has not taken are on the wire.  It accepts
a packet just when this is the frame of the message that it returns.  What `write_frame`
has sent it reads, up to the order of map entries; a frame that was sent in part it
rejects. -/
theorem frames_in_order (calls : List Connection.Call) :
    let connection := run Connection.step .fresh calls
    let sent := Connection.packets calls
    connection.reads.length ≤ sent.length ∧
    connection.wire = sent.drop connection.reads.length ∧
    (∀ (index : Nat) (read : Except SocketError RpcMessage),
      connection.reads[index]? = some read →
      ∃ packet, sent[index]? = some packet ∧
        ∀ message, read = .ok message ↔ RpcMessage.decodeFrame packet = .ok message) ∧
    ∀ (earlier later : List Connection.Call) (message : RpcMessage) (ending : SendEnd)
      (read : Except SocketError RpcMessage),
      calls = earlier ++ .writeFrame message ending :: later →
      (writeFrame message ending).1 ≠ [] →
      connection.reads[(Connection.packets earlier).length]? = some read →
      ((writeFrame message ending).2 = .ok () →
        ∃ found, read = .ok found ∧ message.SameUpToOrder found) ∧
      ((writeFrame message ending).2 ≠ .ok () → ∀ found, read ≠ .ok found) := by
  intro connection sent
  obtain ⟨taken, hSent, hReads⟩ : connection.Accounts sent :=
    Connection.accounts_run calls
  have hLength : connection.reads.length = taken.length := by
    rw [hReads, List.length_map]
  have hJudged : ∀ (index : Nat) (read : Except SocketError RpcMessage),
      connection.reads[index]? = some read →
      ∃ packet, sent[index]? = some packet ∧ readFrame (.packet packet) = read := by
    intro index read hRead
    rw [hReads, List.getElem?_map, Option.map_eq_some_iff] at hRead
    obtain ⟨packet, hPacket, hJudge⟩ := hRead
    have hIndex := (List.getElem?_eq_some_iff.mp hPacket).1
    exact ⟨packet, by rw [hSent, List.getElem?_append_left hIndex, hPacket], hJudge⟩
  refine ⟨?_, ?_, ?_, ?_⟩
  · rw [hLength, hSent, List.length_append]
    omega
  · rw [hLength, hSent, List.drop_left]
  · intro index read hRead
    obtain ⟨packet, hPacket, hJudge⟩ := hJudged index read hRead
    refine ⟨packet, hPacket, fun message => ?_⟩
    rw [← hJudge]
    exact readFrame_packet_eq_ok_iff
  · intro earlier later message ending read hCalls hPut hRead
    obtain ⟨packet, hPacket, hJudge⟩ := hJudged _ read hRead
    rw [← hJudge]
    refine readFrame_of_writeFrame ?_
    -- The packet at this place is the one of the call.
    have hSplit : sent = Connection.packets earlier ++
        ((writeFrame message ending).1 ++ Connection.packets later) := by
      show Connection.packets calls = _
      rw [hCalls, Connection.packets, List.flatMap_append, List.flatMap_cons]
      rfl
    rw [hSplit, List.getElem?_append_right (Nat.le_refl _), Nat.sub_self,
      List.getElem?_append_left (List.length_pos_iff.mpr hPut)] at hPacket
    exact List.mem_of_getElem? hPacket

end Rpc
end RootPermit
