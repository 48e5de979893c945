import XrtcServer.RtpBuilding

/-! The retransmissions of a video send stream. -/
namespace XrtcServer
namespace Rtp
open ByteFormat StructLayout
open XrtcServer.Rtcp (byteAt readUint16 readUint32 writeUint16 writeUint32)

namespace RtpPacket

def payload (p : RtpPacket) : Bytes := load p.buffer.data p.payloadOffset p.payloadSize

/-- The payload is in the buffer. -/
structure Whole (p : RtpPacket) : Prop where
  inside : p.payloadOffset + p.payloadSize ≤ p.buffer.data.length
  isSize : p.payloadSize + kDefaultRtpCapacity < 2^64

end RtpPacket

def kRtxHeaderSize : ℕ := 2

structure Rtx where
  ssrc : UInt32 := 0
  payloadType : ℤ := -1

structure VideoSendStream where
  rtx : Rtx
  rtxSeq : UInt16 := 1000

namespace VideoSendStream
open RtpPacket HeaderField
variable {s : VideoSendStream} {packet : RtpPacket} {fill : ℕ → UInt8}

/-- The packet before its payload is allocated. -/
def rtxHeader (s : VideoSendStream) (packet : RtpPacket) (fill : ℕ → UInt8) : RtpPacket :=
  ((((make kDefaultRtpCapacity fill).setPayloadType (UInt8.ofInt s.rtx.payloadType)).setSsrc
    s.rtx.ssrc).setSequenceNumber s.rtxSeq).setMarker packet.marker |>.setTimestamp packet.timestamp

/-- No packet where the payload cannot be allocated; a number is used up all the same. -/
def buildRtxPacket (s : VideoSendStream) (packet : RtpPacket) (fill : ℕ → UInt8) :
    VideoSendStream × Option RtpPacket :=
  let rtx := s.rtxHeader packet fill
  let s := { s with rtxSeq := s.rtxSeq + 1 }
  let size := UInt64.ofNat (packet.payloadSize + kRtxHeaderSize)
  if (rtx.setPayloadSize 0 fill).payloadEnd size > (rtx.setPayloadSize 0 fill).buffer.capacity then (s, none)
  else
    let rtx := rtx.allocatePayload size fill
    let buffer := rtx.buffer.writeBytes rtx.payloadOffset (writeUint16 packet.sequenceNumber)
    (s, some { rtx with buffer := buffer.writeBytes (rtx.payloadOffset + kRtxHeaderSize) packet.payload })

/-- The packets that are built one after the other. -/
def retransmit (s : VideoSendStream) : List (RtpPacket × (ℕ → UInt8)) → List (Option RtpPacket)
  | [] => []
  | (packet, fill) :: requests =>
    let result := s.buildRtxPacket packet fill
    result.2 :: result.1.retransmit requests

/-- The calls that set the header. -/
def headerCalls (s : VideoSendStream) (packet : RtpPacket) : List RtpPacket.Event :=
  [.setPayloadType (UInt8.ofInt s.rtx.payloadType), .setSsrc s.rtx.ssrc, .setSequenceNumber s.rtxSeq,
    .setMarker packet.marker, .setTimestamp packet.timestamp].map fun call => ⟨call, fun _ => 0⟩

/-- The payload type is one of a session, so that it has seven bits. -/
def HasPayloadType (s : VideoSendStream) : Prop := 0 ≤ s.rtx.payloadType ∧ s.rtx.payloadType < 128

theorem HasPayloadType.bits (h : s.HasPayloadType) : UInt8.ofInt s.rtx.payloadType &&& 0x80 = 0 ∧
    ((UInt8.ofInt s.rtx.payloadType).toNat : ℤ) = s.rtx.payloadType := by
  obtain ⟨hnonneg, hlt⟩ := h
  obtain ⟨n, hn⟩ := Int.eq_ofNat_of_zero_le hnonneg
  have hall : ∀ n < 128, UInt8.ofInt (n : ℕ) &&& 0x80 = 0 ∧ (UInt8.ofInt (n : ℕ)).toNat = n := by decide
  rw [hn] at hlt ⊢
  obtain ⟨hbits, hvalue⟩ := hall n (by omega)
  exact ⟨hbits, by rw [hvalue]⟩

theorem rtxHeader_fresh (h : s.HasPayloadType) : (s.rtxHeader packet fill).Fresh ∧
    ∀ f, (s.rtxHeader packet fill).Agrees f := by
  have hbuilds : ∀ e ∈ s.headerCalls packet, e.call.Builds := by
    intro e he
    simp only [headerCalls, List.map_cons, List.map_nil, List.mem_cons, List.not_mem_nil, or_false] at he
    rcases he with rfl | rfl | rfl | rfl | rfl
    · exact h.bits.1
    all_goals trivial
  obtain ⟨hfresh, hagrees⟩ := (fresh_make kDefaultRtpCapacity fill).run hbuilds
  refine ⟨hfresh, fun f => (hagrees f).mpr (.inl ?_)⟩
  cases f <;> simp [headerCalls, Call.sets]

theorem capacity_rtxHeader : (s.rtxHeader packet fill).buffer.capacity = kDefaultRtpCapacity := by
  have hkeeps (b : CopyOnWriteBuffer) (offset : ℕ) (bytes : Bytes) :=
    (CopyOnWriteBuffer.writeBytes_sizes b offset bytes).2
  simp only [rtxHeader, RtpPacket.setTimestamp, RtpPacket.setMarker, RtpPacket.setSequenceNumber, RtpPacket.setSsrc,
    RtpPacket.setPayloadType, hkeeps, CopyOnWriteBuffer.capacity_writeAt]
  rfl

theorem payload_length (h : packet.Whole) : packet.payload.length = packet.payloadSize := by
  have hinside := h.inside
  rw [RtpPacket.payload, load, List.length_take, List.length_drop]
  omega

/-- The packet with the payload allocated, if there is room for the original number and payload. -/
theorem allocated (hs : s.HasPayloadType) (h : packet.Whole) :
    let rtx := s.rtxHeader packet fill
    let size := UInt64.ofNat (packet.payloadSize + kRtxHeaderSize)
    ((rtx.setPayloadSize 0 fill).payloadEnd size > (rtx.setPayloadSize 0 fill).buffer.capacity ↔
        kDefaultRtpCapacity < kFixedHeaderSize + kRtxHeaderSize + packet.payloadSize) ∧
      (packet.payloadSize + (kFixedHeaderSize + kRtxHeaderSize) ≤ kDefaultRtpCapacity →
        (rtx.allocatePayload size fill).payloadSize = packet.payloadSize + kRtxHeaderSize) := by
  have hsize := h.isSize
  have hcapacity : kDefaultRtpCapacity = 1500 := rfl
  have htoNat : (UInt64.ofNat (packet.payloadSize + kRtxHeaderSize)).toNat = packet.payloadSize + kRtxHeaderSize := by
    rw [UInt64.toNat_ofNat', Nat.mod_eq_of_lt (by simp only [kRtxHeaderSize]; omega)]
  obtain ⟨hfresh, -⟩ := @rtxHeader_fresh s packet fill hs
  have hempty : (s.rtxHeader packet fill).payloadEnd 0 = kFixedHeaderSize := by rw [payloadEnd, hfresh.offset]; rfl
  have hset : (s.rtxHeader packet fill).setPayloadSize 0 fill = { s.rtxHeader packet fill with
      payloadSize := 0
      buffer := (s.rtxHeader packet fill).buffer.setSize kFixedHeaderSize fill } := by
    rw [RtpPacket.setPayloadSize, hempty, capacity_rtxHeader, if_neg (by decide)]
    rfl
  have hend : ((s.rtxHeader packet fill).setPayloadSize 0 fill).payloadEnd
      (UInt64.ofNat (packet.payloadSize + kRtxHeaderSize)) = kFixedHeaderSize + (packet.payloadSize + kRtxHeaderSize) := by
    rw [hset, payloadEnd, htoNat]
    change ((s.rtxHeader packet fill).payloadOffset + _) % _ = _
    rw [hfresh.offset, Nat.mod_eq_of_lt (by simp only [kFixedHeaderSize, kRtxHeaderSize]; omega)]
  have hroom : ((s.rtxHeader packet fill).setPayloadSize 0 fill).buffer.capacity = kDefaultRtpCapacity := by
    rw [hset]
    change max (s.rtxHeader packet fill).buffer.capacity kFixedHeaderSize = _
    rw [capacity_rtxHeader]
    rfl
  dsimp only
  rw [hend, hroom]
  refine ⟨by omega, fun hfits => ?_⟩
  rw [RtpPacket.allocatePayload, RtpPacket.setPayloadSize, hend, hroom, if_neg (by omega)]
  exact htoNat

/-- What a built packet is: the header that was set, and the original number with the payload. -/
theorem built (hs : s.HasPayloadType) (h : packet.Whole)
    (hfits : packet.payloadSize + (kFixedHeaderSize + kRtxHeaderSize) ≤ kDefaultRtpCapacity) :
    ∃ rtx, (s.buildRtxPacket packet fill).2 = some rtx ∧ rtx.Fresh ∧
      (∀ f, valueIn rtx.buffer.data f = (s.rtxHeader packet fill).value f) ∧
      rtx.payload = writeUint16 packet.sequenceNumber ++ packet.payload := by
  obtain ⟨hroom, hsize⟩ := @allocated s packet fill hs h
  obtain ⟨hheader, hagrees⟩ := @rtxHeader_fresh s packet fill hs
  have hbound : kFixedHeaderSize + (UInt64.ofNat (packet.payloadSize + kRtxHeaderSize)).toNat < 2^64 := by
    have hisSize := h.isSize
    have hcapacity : kDefaultRtpCapacity = 1500 := rfl
    rw [UInt64.toNat_ofNat', Nat.mod_eq_of_lt (by simp only [kRtxHeaderSize]; omega)]
    simp only [kFixedHeaderSize, kRtxHeaderSize]
    omega
  obtain ⟨hfresh, hkept⟩ := hheader.allocatePayload hbound fill
  rw [buildRtxPacket]
  dsimp only
  rw [if_neg fun hfull => absurd (hroom.mp hfull) (by omega)]
  have hvalue (f : HeaderField) : ((s.rtxHeader packet fill).allocatePayload
      (UInt64.ofNat (packet.payloadSize + kRtxHeaderSize)) fill).value f = (s.rtxHeader packet fill).value f :=
    (value_setPayloadSize _ _ _ f).trans (value_setPayloadSize _ _ _ f)
  have hsize := hsize hfits
  generalize (s.rtxHeader packet fill).allocatePayload (UInt64.ofNat (packet.payloadSize + kRtxHeaderSize)) fill = rtx
    at hfresh hkept hsize hvalue ⊢
  have hlength := hfresh.length
  have hpayload := payload_length h
  have hwritten : (writeUint16 packet.sequenceNumber ++ packet.payload).length = rtx.payloadSize := by
    rw [List.length_append, Rtcp.writeUint16_length, hpayload, hsize, Nat.add_comm]
    rfl
  have hdata : ((rtx.buffer.writeBytes rtx.payloadOffset (writeUint16 packet.sequenceNumber)).writeBytes
      (rtx.payloadOffset + kRtxHeaderSize) packet.payload).data =
        put rtx.buffer.data kFixedHeaderSize (writeUint16 packet.sequenceNumber ++ packet.payload) := by
    rw [hfresh.offset, CopyOnWriteBuffer.data_writeBytes, CopyOnWriteBuffer.data_writeBytes]
    · exact CopyOnWriteBuffer.put_put (by omega) _ _
    · rw [Rtcp.writeUint16_length, hlength, hsize]
      simp only [kRtxHeaderSize]
      omega
    · rw [(CopyOnWriteBuffer.writeBytes_sizes _ _ _).1, hlength, hsize, hpayload]
      omega
  have hfit : kFixedHeaderSize + (writeUint16 packet.sequenceNumber ++ packet.payload).length ≤ rtx.buffer.data.length := by
    rw [hwritten, hlength]
  refine ⟨_, rfl, ⟨hfresh.offset, hfresh.padding, ?_, ?_⟩, fun f => ?_, ?_⟩
  · rw [hdata, put_length hfit, hlength]
  · rw [hdata, byteAt_eq_load, load_put_before (by decide) (by omega), ← byteAt_eq_load, hfresh.first]
  · rw [hdata, valueIn_put f hfit (.inr f.place.2), ← hvalue f]
    exact (hkept f).mpr (hagrees f)
  · rw [RtpPacket.payload, hdata]
    change load _ rtx.payloadOffset rtx.payloadSize = _
    rw [hfresh.offset, ← hwritten, load_put (by omega)]

/-- Whoever reads the packet gets the header of the retransmission, and behind it the number and the payload
of the original. -/
def Restores (rtx : Rtx) (rtxSeq : UInt16) (packet sent : RtpPacket) : Prop :=
  ∀ (reader : RtpPacket) (capacity : ℕ) (fill : ℕ → UInt8),
    ∃ q, reader.parse sent.buffer.data capacity fill = (q, true) ∧ q.ssrc = rtx.ssrc ∧
      (q.payloadType.toNat : ℤ) = rtx.payloadType ∧ q.sequenceNumber = rtxSeq ∧ q.marker = packet.marker ∧
      q.timestamp = packet.timestamp ∧ q.payload = writeUint16 packet.sequenceNumber ++ packet.payload

theorem restores (hs : s.HasPayloadType) {sent : RtpPacket} (hfresh : sent.Fresh)
    (hvalues : ∀ f, valueIn sent.buffer.data f = (s.rtxHeader packet fill).value f)
    (hpayload : sent.payload = writeUint16 packet.sequenceNumber ++ packet.payload) :
    Restores s.rtx s.rtxSeq packet sent := by
  intro reader capacity fill'
  obtain ⟨q, hparse, hread, hoffset, hsize, -⟩ := hfresh.parseBuffer reader
  have hvalue (f : HeaderField) : q.value f = (s.rtxHeader packet fill).value f := (hread f).trans (hvalues f)
  refine ⟨{ q with buffer := ⟨sent.buffer.data, max capacity sent.buffer.data.length, le_max_right _ _⟩ },
    by rw [parse, hparse], ?_, ?_, ?_, ?_, ?_, ?_⟩
  · exact UInt32.toNat_inj.mp (hvalue .ssrc)
  · rw [← hs.bits.2]
    exact congrArg Nat.cast (hvalue .payloadType)
  · exact UInt16.toNat_inj.mp (hvalue .sequenceNumber)
  · have hmarker : (if q.marker = true then 1 else 0) = if packet.marker = true then 1 else 0 := hvalue .marker
    change q.marker = packet.marker
    cases hq : q.marker <;> cases hp : packet.marker <;> simp [hq, hp] at hmarker ⊢
  · exact UInt32.toNat_inj.mp (hvalue .timestamp)
  · rw [← hpayload, RtpPacket.payload, RtpPacket.payload, ← hoffset, ← hsize]

theorem buildRtxPacket_fst (s : VideoSendStream) (packet : RtpPacket) (fill : ℕ → UInt8) :
    (s.buildRtxPacket packet fill).1 = { s with rtxSeq := s.rtxSeq + 1 } := by
  unfold buildRtxPacket
  dsimp only
  split <;> rfl

/-- One retransmission. -/
theorem buildRtxPacket_restores (hs : s.HasPayloadType) (h : packet.Whole) :
    ((s.buildRtxPacket packet fill).2 = none ↔
        kDefaultRtpCapacity < kFixedHeaderSize + kRtxHeaderSize + packet.payloadSize) ∧
      ∀ sent ∈ (s.buildRtxPacket packet fill).2, Restores s.rtx s.rtxSeq packet sent := by
  by_cases hfits : packet.payloadSize + (kFixedHeaderSize + kRtxHeaderSize) ≤ kDefaultRtpCapacity
  · obtain ⟨rtx, hrtx, hfresh, hvalues, hpayload⟩ := @built s packet fill hs h hfits
    rw [hrtx]
    refine ⟨⟨nofun, fun hlarge => by omega⟩, fun sent hsent => ?_⟩
    obtain rfl := Option.some.inj hsent
    exact restores hs hfresh hvalues hpayload
  · have hlarge : kDefaultRtpCapacity < kFixedHeaderSize + kRtxHeaderSize + packet.payloadSize := by omega
    have hnone : (s.buildRtxPacket packet fill).2 = none := by
      rw [buildRtxPacket]
      dsimp only
      rw [if_pos ((allocated hs h).1.mpr hlarge)]
    rw [hnone]
    exact ⟨⟨fun _ => hlarge, fun _ => rfl⟩, nofun⟩

/-- The retransmissions of a stream have consecutive numbers, and each restores its original for whoever reads
it; only a number is left where the original has too much payload. -/
theorem retransmissions_restore (hs : s.HasPayloadType) {requests : List (RtpPacket × (ℕ → UInt8))}
    (h : ∀ request ∈ requests, request.1.Whole) {i : ℕ} {request : RtpPacket × (ℕ → UInt8)}
    (hi : requests[i]? = some request) :
    ∃ result, (s.retransmit requests)[i]? = some result ∧
      (result = none ↔ kDefaultRtpCapacity < kFixedHeaderSize + kRtxHeaderSize + request.1.payloadSize) ∧
      ∀ sent ∈ result, Restores s.rtx (s.rtxSeq + UInt16.ofNat i) request.1 sent := by
  induction requests generalizing s i with
  | nil => cases hi
  | cons head requests ih =>
    cases i with
    | zero =>
      obtain rfl := Option.some.inj hi
      have hresult := @buildRtxPacket_restores s head.1 head.2 hs (h head List.mem_cons_self)
      refine ⟨_, rfl, hresult.1, ?_⟩
      rw [show s.rtxSeq + UInt16.ofNat 0 = s.rtxSeq from UInt16.add_zero _]
      exact hresult.2
    | succ i =>
      have hnext : (s.buildRtxPacket head.1 head.2).1.HasPayloadType := by
        rw [buildRtxPacket_fst]
        exact hs
      obtain ⟨result, hresult, hnone, hrestores⟩ :=
        ih hnext (fun request' hmem => h request' (List.mem_cons_of_mem head hmem)) hi
      refine ⟨result, hresult, hnone, ?_⟩
      have hseq : s.rtxSeq + UInt16.ofNat (i + 1) = s.rtxSeq + 1 + UInt16.ofNat i := by
        rw [UInt16.ofNat_add, UInt16.add_assoc, UInt16.add_comm (UInt16.ofNat i)]
        rfl
      rw [buildRtxPacket_fst] at hrestores
      rw [hseq]
      exact hrestores

def sentPacket : RtpPacket := Runs.run RtpPacket.step (make 64 fun _ => 0) fullHeader

theorem whole_sentPacket : sentPacket.Whole := ⟨by decide, by decide⟩

/-- The second retransmission of a packet. -/
theorem retransmissions_restore_second :
    ∃ result, (({ rtx := ⟨9, 97⟩ } : VideoSendStream).retransmit
        [(sentPacket, fun _ => 0), (sentPacket, fun _ => 0xff)])[1]? = some result ∧
      (result = none ↔ kDefaultRtpCapacity < kFixedHeaderSize + kRtxHeaderSize + sentPacket.payloadSize) ∧
      ∀ sent ∈ result, Restores ⟨9, 97⟩ 1001 sentPacket sent := by
  have hwhole : ∀ request ∈ [(sentPacket, fun _ => 0), (sentPacket, (fun _ => 0xff : ℕ → UInt8))],
      request.1.Whole := by
    intro request hmem
    simp only [List.mem_cons, List.not_mem_nil, or_false] at hmem
    rcases hmem with rfl | rfl <;> exact whole_sentPacket
  exact @retransmissions_restore { rtx := ⟨9, 97⟩ } ⟨by decide, by decide⟩ _ hwhole 1 (sentPacket, fun _ => 0xff) rfl

end VideoSendStream
end Rtp
end XrtcServer
