import Shairplay.Crypto.VideoCipher
import Shairplay.Lib.Bytes

/-!
# The receiver of a mirroring stream

A packet is a header of 128 bytes, of which the length of the payload, the type and the
timestamp are read, and the payload. The payloads of video packets are encrypted, all others
are in the clear. The session gets every packet with a payload, in order, and is told once when
the stream ends.

The stream is the list of the bytes that arrive before a read fails, at the end of the
connection or after a time limit.
-/

namespace Shairplay.Raop

open Crypto
open Lib.Bytes (leBytes leNat)
open Lib.Keystream

def videoHeaderLen : Nat := 128

def maxVideoPayloadLen : Nat := 32 * 1024 * 1024

structure VideoHeader where
  payloadLen : Nat
  packetType : UInt16
  timestamp : UInt64

def parseHeader (header : List UInt8) : VideoHeader where
  payloadLen := leNat (header.take 4)
  packetType := UInt16.ofNat (leNat ((header.drop 4).take 2))
  timestamp := UInt64.ofNat (leNat ((header.drop 8).take 8))

inductive PacketKind
  | avcC
  | hvcC
  | payload
  | plist
  | other (packetType : UInt16)
  deriving DecidableEq

/-- `hvc1` -/
def hvcMark : List UInt8 := [0x68, 0x76, 0x63, 0x31]

def classifyPacket (packetType : UInt16) (payload : List UInt8) : PacketKind :=
  if packetType = 1 then
    if 8 ≤ payload.length ∧ (payload.drop 4).take 4 = hvcMark then .hvcC else .avcC
  else if packetType = 0 ∨ packetType = 4096 then .payload
  else if packetType = 5 then .plist
  else .other packetType

structure VideoPacket where
  kind : PacketKind
  timestamp : UInt64
  payload : List UInt8
  deriving DecidableEq

/-- What the receiver calls on its session. -/
inductive VideoCall
  | onVideo (packet : VideoPacket)
  | onVideoEnd
  deriving DecidableEq

/-- `read_exact`: the next bytes and the rest, unless the stream ends before. -/
def readExact (n : Nat) (stream : List UInt8) : Option (List UInt8 × List UInt8) :=
  if n ≤ stream.length then some (stream.take n, stream.drop n) else none

/-- The loop of the receiver, for at most `rounds` headers. -/
def processLoop : (rounds : Nat) → VideoCipher → List UInt8 → List VideoCall
  | 0, _, _ => []
  | rounds + 1, cipher, stream =>
    match readExact videoHeaderLen stream with
    | none => [.onVideoEnd]
    | some (header, stream) =>
      let metadata := parseHeader header
      if metadata.payloadLen = 0 then processLoop rounds cipher stream
      else if maxVideoPayloadLen < metadata.payloadLen then [.onVideoEnd]
      else
        match readExact metadata.payloadLen stream with
        | none => [.onVideoEnd]
        | some (payload, stream) =>
          let kind := classifyPacket metadata.packetType payload
          let (cipher, payload) :=
            if kind = .payload then cipher.decrypt payload else (cipher, payload)
          .onVideo { kind, timestamp := metadata.timestamp, payload } ::
            processLoop rounds cipher stream

/-- What the session gets. Every round reads a header, so there are fewer rounds than bytes. -/
def process (cipher : VideoCipher) (stream : List UInt8) : List VideoCall :=
  processLoop (stream.length + 1) cipher stream

/-- A packet of the sender. The receiver ignores two bytes behind the type and everything behind
the timestamp. -/
structure MirrorPacket where
  packetType : UInt16
  timestamp : UInt64
  payload : List UInt8
  flags : List UInt8
  trailer : List UInt8
  payload_le : payload.length ≤ maxVideoPayloadLen
  flags_length : flags.length = 2
  trailer_length : trailer.length = 112

namespace MirrorPacket

def encrypted (m : MirrorPacket) : Bool := m.packetType = 0 ∨ m.packetType = 4096

def header (m : MirrorPacket) : List UInt8 :=
  leBytes 4 m.payload.length ++ leBytes 2 m.packetType.toNat ++ m.flags ++
    leBytes 8 m.timestamp.toNat ++ m.trailer

/-- The bytes of a sequence of packets, encrypted with one keystream from a position on. -/
def stream (ks : Nat → UInt8) : (position : Nat) → List MirrorPacket → List UInt8
  | _, [] => []
  | position, m :: packets =>
    if m.encrypted then
      m.header ++ xorFrom ks position m.payload ++ stream ks (position + m.payload.length) packets
    else m.header ++ m.payload ++ stream ks position packets

/-- The packet as the session is to get it. -/
def delivered (m : MirrorPacket) : VideoPacket where
  kind := classifyPacket m.packetType m.payload
  timestamp := m.timestamp
  payload := m.payload

theorem length_header (m : MirrorPacket) : m.header.length = videoHeaderLen := by
  simp [header, m.flags_length, m.trailer_length, videoHeaderLen]

theorem parseHeader_header (m : MirrorPacket) :
    parseHeader m.header = ⟨m.payload.length, m.packetType, m.timestamp⟩ := by
  have payloadLen : leNat (leBytes 4 m.payload.length) = m.payload.length := by
    apply Lib.Bytes.leNat_leBytes
    exact Nat.lt_of_le_of_lt m.payload_le (by decide)
  have packetType : leNat (leBytes 2 m.packetType.toNat) = m.packetType.toNat :=
    Lib.Bytes.leNat_leBytes m.packetType.toNat_lt
  have timestamp : leNat (leBytes 8 m.timestamp.toNat) = m.timestamp.toNat :=
    Lib.Bytes.leNat_leBytes m.timestamp.toNat_lt
  have front : (leBytes 4 m.payload.length ++ leBytes 2 m.packetType.toNat ++ m.flags).length =
      8 := by
    simp [m.flags_length]
  unfold parseHeader header
  rw [List.append_assoc (_ ++ _ ++ m.flags), List.drop_left' front,
    List.take_left' (Lib.Bytes.length_leBytes ..), timestamp, List.append_assoc _ m.flags,
    List.append_assoc, List.take_left' (Lib.Bytes.length_leBytes ..), payloadLen,
    List.drop_left' (Lib.Bytes.length_leBytes ..), List.take_left' (Lib.Bytes.length_leBytes ..),
    packetType]
  simp

end MirrorPacket

theorem readExact_append {n : Nat} {front : List UInt8} (length : front.length = n)
    (rest : List UInt8) : readExact n (front ++ rest) = some (front, rest) := by
  have enough : n ≤ (front ++ rest).length := by
    rw [List.length_append, length]
    exact Nat.le_add_right _ _
  rw [readExact, if_pos enough, List.take_left' length, List.drop_left' length]

theorem classifyPacket_eq_payload_iff {packetType : UInt16} {payload : List UInt8} :
    classifyPacket packetType payload = .payload ↔ packetType = 0 ∨ packetType = 4096 := by
  unfold classifyPacket
  split
  · rename_i config
    subst config
    split <;> decide
  · split
    · rename_i encrypted
      exact ⟨fun _ => encrypted, fun _ => rfl⟩
    · rename_i clear
      split <;> simp [clear]

/-- What is encrypted is a video packet, whatever its payload looks like. -/
theorem MirrorPacket.kind_of_encrypted {m : MirrorPacket} (encrypted : m.encrypted = true)
    (body : List UInt8) : classifyPacket m.packetType body = .payload :=
  classifyPacket_eq_payload_iff.mpr (by simpa [MirrorPacket.encrypted] using encrypted)

theorem processLoop_packet (m : MirrorPacket) (rounds : Nat) (cipher : VideoCipher)
    {body : List UInt8} (length : body.length = m.payload.length) (rest : List UInt8) :
    processLoop (rounds + 1) cipher (m.header ++ (body ++ rest)) =
      if m.payload = [] then processLoop rounds cipher rest
      else if m.encrypted then
        .onVideo ⟨.payload, m.timestamp, (cipher.decrypt body).2⟩ ::
          processLoop rounds (cipher.decrypt body).1 rest
      else
        .onVideo ⟨classifyPacket m.packetType body, m.timestamp, body⟩ ::
          processLoop rounds cipher rest := by
  rw [processLoop, readExact_append m.length_header]
  dsimp only
  rw [m.parseHeader_header]
  dsimp only
  by_cases empty : m.payload = []
  · rw [empty, List.length_nil] at length
    rw [if_pos empty, if_pos (by rw [empty]; rfl), List.eq_nil_of_length_eq_zero length,
      List.nil_append]
  · rw [if_neg empty, if_neg (mt List.eq_nil_of_length_eq_zero empty),
      if_neg (Nat.not_lt.mpr m.payload_le), readExact_append length]
    dsimp only
    cases encrypted : m.encrypted with
    | true =>
      rw [MirrorPacket.kind_of_encrypted encrypted]
      rfl
    | false =>
      have kind : classifyPacket m.packetType body ≠ .payload := by
        rw [Ne, classifyPacket_eq_payload_iff]
        simpa [MirrorPacket.encrypted] using encrypted
      rw [if_neg kind]
      rfl

/-- From any position of the keystream on, the packets with a payload come out as they went in. -/
theorem processLoop_stream {ks : Nat → UInt8} {position : Nat} {cipher : VideoCipher}
    (h : VideoCipher.At ks position cipher) {packets : List MirrorPacket} {rounds : Nat}
    (enough : packets.length < rounds) :
    processLoop rounds cipher (MirrorPacket.stream ks position packets) =
      (packets.filter (·.payload ≠ [])).map (fun m => .onVideo m.delivered) ++ [.onVideoEnd] := by
  induction packets generalizing position cipher rounds with
  | nil =>
    obtain ⟨rounds, rfl⟩ := Nat.exists_eq_add_of_lt enough
    rfl
  | cons m packets ih =>
    obtain ⟨rounds, rfl⟩ : ∃ n, rounds = n + 1 := Nat.exists_eq_succ_of_ne_zero (by omega)
    have fewer : packets.length < rounds := Nat.lt_of_succ_lt_succ enough
    rw [MirrorPacket.stream, List.filter_cons]
    cases encrypted : m.encrypted with
    | true =>
      rw [if_pos rfl, List.append_assoc,
        processLoop_packet m rounds cipher (length_xorFrom ks position m.payload)]
      by_cases empty : m.payload = []
      · rw [if_pos empty, if_neg (by simp [empty])]
        rw [empty]
        exact ih h fewer
      · obtain ⟨plain, next⟩ := h.decrypt (xorFrom ks position m.payload)
        rw [xorFrom_xorFrom] at plain
        rw [length_xorFrom] at next
        rw [if_neg empty, if_pos encrypted, plain, ih next fewer, if_pos (by simp [empty]),
          List.map_cons, List.cons_append, MirrorPacket.delivered,
          MirrorPacket.kind_of_encrypted encrypted]
    | false =>
      rw [if_neg Bool.false_ne_true, List.append_assoc,
        processLoop_packet m rounds cipher rfl, ih h fewer]
      by_cases empty : m.payload = []
      · rw [if_pos empty, if_neg (by simp [empty])]
      · rw [if_neg empty, if_neg (by simp [encrypted]), if_pos (by simp [empty])]
        rfl

theorem length_le_stream (ks : Nat → UInt8) (position : Nat) (packets : List MirrorPacket) :
    packets.length ≤ (MirrorPacket.stream ks position packets).length := by
  induction packets generalizing position with
  | nil => exact Nat.le_refl _
  | cons m packets ih =>
    have header : 1 ≤ m.header.length := by
      rw [m.length_header]
      decide
    rw [MirrorPacket.stream, List.length_cons]
    split
    · have rest := ih (position + m.payload.length)
      simp only [List.length_append]
      omega
    · have rest := ih position
      simp only [List.length_append]
      omega

/-- The session gets the packets that have a payload, as the sender had them and in its order,
and then the end of the stream. -/
theorem process_stream (block : BitVec 128 → List UInt8) (iv : BitVec 128)
    (packets : List MirrorPacket) :
    process (.new block iv)
        (MirrorPacket.stream (VideoCipher.new block iv).cipher.keystream 0 packets) =
      (packets.filter (·.payload ≠ [])).map (fun m => .onVideo m.delivered) ++ [.onVideoEnd] :=
  processLoop_stream (VideoCipher.at_new block iv)
    (Nat.lt_succ_of_le (length_le_stream _ _ packets))

end Shairplay.Raop
