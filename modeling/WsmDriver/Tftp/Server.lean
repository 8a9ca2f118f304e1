import WsmDriver.Tftp.Client

/-!
# The server and the network

A server that offers one file, block by block, and goes on to the next block when the last one it
sent is acknowledged by its number modulo 65536. It may or may not accept the client's options
first. It answers from one port.

The network keeps every datagram: what was sent may arrive any number of times, at any later time,
or never. A retransmission of the server is then the same datagram once more.
-/

namespace WsmDriver.Tftp

open Effect Program
open W6300 (be16 word word_be16)

/-- A server, and what it has to offer. -/
structure Server where
  file : List UInt8
  ip : UInt32
  /-- The port it transfers from. -/
  port : UInt16
  /-- The options in its `OACK`. -/
  options : List UInt8 := []

namespace Server

/-- The last block is the first that is not full. -/
def blockCount (srv : Server) : ℕ := srv.file.length / 512 + 1

/-- The `n`-th block; the first is block 1. -/
def block (srv : Server) (n : ℕ) : List UInt8 := (srv.file.drop (512 * (n - 1))).take 512

/-- The datagram with the `n`-th block. -/
def dataPacket (srv : Server) (n : ℕ) : List UInt8 :=
  be16 tftpData ++ be16 (UInt16.ofNat n) ++ srv.block n

/-- The datagram that accepts the options. -/
def oackPacket (srv : Server) : List UInt8 := be16 tftpOack ++ srv.options

end Server

/-- The server's progress, what the network holds for it, and what the application was given. -/
structure Net where
  /-- A request was sent. -/
  requested : Bool := false
  /-- The server has sent an `OACK`. -/
  oacked : Bool := false
  /-- The block numbers of the acknowledgements that were sent. -/
  acks : List UInt16 := []
  /-- The blocks 1 to `sent` were sent. -/
  sent : ℕ := 0
  /-- The data passed to `save_data`, in order. -/
  saved : List UInt8 := []

namespace Net

/-- A datagram is sent to an address and a port. -/
def hear (srv : Server) (e : Net) (packet : List UInt8) (ip : UInt32) (port : UInt16) : Net :=
  if ip = srv.ip ∧ port = tftpServerPort ∧ word packet = tftpRrq then { e with requested := true }
  else if ip = srv.ip ∧ port = srv.port ∧ word packet = tftpAck then
    { e with acks := word (packet.drop 2) :: e.acks }
  else e

/-- What the server does by itself. -/
inductive Moves (srv : Server) (e : Net) : Net → Prop
  /-- It answers a request with the first block. -/
  | first (hr : e.requested = true) (ho : e.oacked = false) (hs : e.sent = 0) :
      Moves srv e { e with sent := 1 }
  /-- It answers a request by accepting the options. -/
  | oack (hr : e.requested = true) (hs : e.sent = 0) : Moves srv e { e with oacked := true }
  /-- It takes an acknowledgement of what it sent last, and sends the next block. -/
  | next (ha : UInt16.ofNat e.sent ∈ e.acks) (hs : e.sent ≠ 0 ∨ e.oacked = true)
      (hb : e.sent < srv.blockCount) :
    Moves srv e { e with sent := e.sent + 1 }

/-- A datagram of the server that is on the network. -/
def Holds (srv : Server) (e : Net) (data : List UInt8) : Prop :=
  (∃ n, n ≠ 0 ∧ n ≤ e.sent ∧ data = srv.dataPacket n) ∨
    (e.oacked = true ∧ data = srv.oackPacket)

end Net

/-- The surroundings of the client. -/
def net (srv : Server) : Env Globals Net TftpOp.Ans where
  drift := Net.Moves srv
  answer
    | .openSocket _, _, e, _, e' => e' = e
    | .send _ packet ip port, _, e, _, e' => e' = e ∨ e' = e.hear srv packet ip port
    | .recv _ len, _, e, a, e' => e' = e ∧ ∀ r, a = some r →
      e.Holds srv r.data ∧ r.data.length ≤ len ∧ r.fromIp = srv.ip ∧ r.fromPort = srv.port
    | .saveData data dataLen _, _, e, _, e' =>
      e' = { e with saved := e.saved ++ data.take dataLen.toNat }

variable {srv : Server} {e e' : Net} {n : ℕ}

/-! ## Blocks -/

namespace Server

theorem length_block (srv : Server) (n : ℕ) : (srv.block n).length =
    min 512 (srv.file.length - 512 * (n - 1)) := by
  rw [block, List.length_take, List.length_drop]

theorem length_block_of_lt (hn : n ≠ 0) (h : n < srv.blockCount) : (srv.block n).length = 512 := by
  rw [length_block]
  rw [blockCount] at h
  omega

theorem length_block_of_eq (h : n = srv.blockCount) : (srv.block n).length < 512 := by
  rw [length_block]
  rw [blockCount] at h
  omega

theorem length_block_le (srv : Server) (n : ℕ) : (srv.block n).length ≤ 512 := by
  rw [length_block]
  exact Nat.min_le_left _ _

/-- The blocks up to the `n`-th one are a beginning of the file. -/
theorem take_append_block (srv : Server) (n : ℕ) :
    srv.file.take (512 * n) ++ srv.block (n + 1) = srv.file.take (512 * (n + 1)) := by
  rw [block, Nat.add_sub_cancel, Nat.mul_succ, List.take_add]

/-- And with the last one the whole. -/
theorem take_of_blockCount_le (h : srv.blockCount ≤ n) : srv.file.take (512 * n) = srv.file := by
  refine List.take_of_length_le ?_
  rw [blockCount] at h
  omega

end Server

/-! ## The client's packets -/

theorem hear_ackPacket (srv : Server) (e : Net) (b : UInt16) (ip : UInt32) (port : UInt16) :
    e.hear srv (ackPacket b) ip port = e ∨ e.hear srv (ackPacket b) ip port =
    { e with acks := b :: e.acks } := by
  have hop : word (ackPacket b) = tftpAck := word_be16 tftpAck
  have hnum : word ((ackPacket b).drop 2) = b := word_be16 b
  have hne : ¬tftpAck = tftpRrq := by decide
  rw [Net.hear, hop, hnum, if_neg fun h ↦ hne h.2.2]
  split
  · exact .inr rfl
  · exact .inl rfl

theorem hear_rrqPacket (srv : Server) (e : Net) (filename mode : List UInt8)
    (opt : List (List UInt8 × List UInt8)) (ip : UInt32) (port : UInt16) :
    e.hear srv (rrqPacket filename mode opt) ip port = e ∨
      e.hear srv (rrqPacket filename mode opt) ip port = { e with requested := true } := by
  have hop : word (rrqPacket filename mode opt) = tftpRrq := word_be16 tftpRrq
  have hne : ¬tftpRrq = tftpAck := by decide
  rw [Net.hear, hop]
  split
  · exact .inr rfl
  · rw [if_neg fun h ↦ hne h.2.2]
    exact .inl rfl

/-! ## The receive buffer -/

theorem drop_swapAt (buf : List UInt8) {i k : ℕ} (h : i + 1 < k) : (swapAt buf i).drop k =
    buf.drop k := by
  rw [swapAt, List.drop_set_of_lt h, List.drop_set_of_lt (Nat.lt_of_succ_lt h)]

section

variable {buf rest : List UInt8} (hbuf : buf = srv.dataPacket n ++ rest)

include hbuf

theorem word_dataPacket : word buf = tftpData := by
  rw [hbuf]
  exact word_be16 tftpData

theorem blockNum_dataPacket : word (buf.drop 2) = UInt16.ofNat n := by
  rw [hbuf]
  exact word_be16 _

/-- The data that a block's length marks is the block. -/
theorem payload_dataPacket : ((swapAt (swapAt buf 0) 2).drop 4).take (srv.block n).length =
    srv.block n := by
  rw [drop_swapAt _ (by decide), drop_swapAt _ (by decide), hbuf]
  exact List.take_left' rfl

end

end WsmDriver.Tftp
