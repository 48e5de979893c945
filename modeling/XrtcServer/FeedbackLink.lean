import XrtcServer.ReportFlags
import XrtcServer.ReportWriting
import XrtcServer.RtcpDispatch
import Mathlib.Data.List.Forall2

/-! What one side sends with `SendRTCP`, as the receiver of the other side hears it. -/
namespace XrtcServer
namespace Rtcp
open ByteFormat

def IP_PACKET_SIZE : ℕ := 1500

/-- Without the headers of IPv4 and UDP. -/
def maxPacketSize : ℕ := IP_PACKET_SIZE - 28

/-- `PacketSender::Append`. -/
def Built.append (c : Compound) : Built → Compound
  | .sr report => (report.create maxPacketSize c).2
  | .rr report => (report.create maxPacketSize c).2
  | .nack n => (n.create maxPacketSize c).2

/-- The datagrams that `OnLocalRtcpPacket` gets; `Send` gives it what is left in the buffer. -/
def localRtcpPackets (built : List Built) : List Bytes := (built.foldl Built.append {}).flushed.ready

/-- What a receiver does on a block that it understands. -/
inductive Message
  | senderReport (report : SenderReport)
  | nack (packetIds : List UInt16)

namespace Message

def ids : Message → List UInt16
  | senderReport _ => []
  | nack packetIds => packetIds

def report : Message → Option SenderReport
  | senderReport report => some report
  | nack _ => none

end Message

def RTCPReceiver.hear (clock : Clock) (s : RTCPReceiver) : Message → RTCPReceiver
  | .senderReport report => s.keepReport clock report
  | .nack packetIds => s.tell (.nackReceived s.audio packetIds)

/-- A receiver in whatever state takes the datagram for these messages. -/
def Means (datagram : Bytes) (messages : List Message) : Prop :=
  ∀ (s : RTCPReceiver) (clock : Clock),
    s.incomingRtcpPacket clock datagram = messages.foldl (RTCPReceiver.hear clock) s

section Blocks

/-- The same of a part of a datagram. -/
def Spells (b : Bytes) (messages : List Message) : Prop :=
  ∀ (s : RTCPReceiver) (clock : Clock) (first : Bool) (rest : Bytes), ∃ first',
    RTCPReceiver.parseBlocks clock s first (b ++ rest)
      = RTCPReceiver.parseBlocks clock (messages.foldl (RTCPReceiver.hear clock) s) first' rest

theorem spells_nil : Spells [] [] := fun _ _ first _ => ⟨first, rfl⟩

theorem Spells.append {b b' : Bytes} {ms ms' : List Message} (h : Spells b ms) (h' : Spells b' ms') :
    Spells (b ++ b') (ms ++ ms') := by
  intro s clock first rest
  obtain ⟨first₁, hfirst⟩ := h s clock first (b' ++ rest)
  obtain ⟨first₂, hsecond⟩ := h' (ms.foldl (RTCPReceiver.hear clock) s) clock first₁ rest
  exact ⟨first₂, by rw [List.append_assoc, hfirst, hsecond, List.foldl_append]⟩

theorem Spells.means {b : Bytes} {ms : List Message} (h : Spells b ms) : Means b ms := by
  intro s clock
  have hend (s : RTCPReceiver) (first : Bool) : RTCPReceiver.parseBlocks clock s first [] = s := by
    rw [RTCPReceiver.parseBlocks, if_pos rfl]
  obtain ⟨first, hparse⟩ := h s clock true []
  rw [List.append_nil, hend] at hparse
  rw [RTCPReceiver.incomingRtcpPacket]
  split
  · next hnil =>
    rw [hnil, hend] at hparse
    exact hparse
  · exact hparse

/-- A block that is parsed and handled. -/
theorem spells_of_handled {b : Bytes} {ms : List Message}
    (h : ∀ rest, ∃ header, CommonHeader.parse (b ++ rest) = some header ∧ header.nextPacket = rest ∧
      ∀ (s : RTCPReceiver) (clock : Clock),
        s.handleBlock clock header = ms.foldl (RTCPReceiver.hear clock) s) : Spells b ms := by
  intro s clock first rest
  obtain ⟨header, hparse, hnext, hhandle⟩ := h rest
  have hne : b ++ rest ≠ [] := by
    intro hnil
    rw [hnil] at hparse
    cases hparse
  refine ⟨false, ?_⟩
  rw [RTCPReceiver.parseBlocks_of_some hne hparse, hnext, hhandle]

/-- No case of the switch is for a receiver report. -/
theorem spells_receiverReport {r : ReceiverReport} (hcount : r.reportBlocks.length ≤ 31) :
    Spells r.bytes [] := by
  refine spells_of_handled fun rest => ?_
  obtain ⟨header, hparse, htype, hnext, -⟩ := r.parse_bytes hcount rest
  refine ⟨header, hparse, hnext, fun s clock => ?_⟩
  rw [RTCPReceiver.handleBlock, htype, if_neg (by decide), if_neg (by decide)]
  rfl

theorem spells_senderReport {r : SenderReport} (hnone : r.reportBlocks = []) :
    Spells r.bytes [.senderReport { r with senderOctetCount := none }] := by
  refine spells_of_handled fun rest => ?_
  obtain ⟨header, hparse, htype, hnext, hreport⟩ := r.parse_bytes (by simp [hnone]) rest
  refine ⟨header, hparse, hnext, fun s clock => ?_⟩
  rw [RTCPReceiver.handleBlock, htype, if_pos rfl, RTCPReceiver.handleSenderReport, hreport]
  simp only [hnone, List.foldl_nil, List.foldl_cons, RTCPReceiver.hear]

theorem spells_nack (nack : Nack) {items : List PackedNack} (hne : items ≠ [])
    (hlen : items.length ≤ Nack.maxItems) : Spells (nack.block items) [.nack (Nack.unpack items)] := by
  refine spells_of_handled fun rest => ?_
  obtain ⟨header, hparse, htype, hfmt, hnack, hnext⟩ := nack.parse_block hne hlen rest
  refine ⟨header, hparse, hnext, fun s clock => ?_⟩
  rw [RTCPReceiver.handleBlock, htype, hfmt, if_neg (by decide), if_pos rfl, if_pos rfl,
    RTCPReceiver.handleNack, hnack]
  rfl

end Blocks

section Datagrams

/-- Bytes that are appended at once, and what they say. -/
structure Chunk where
  bytes : Bytes
  messages : List Message
  spells : Spells bytes messages
  silent : bytes = [] → messages = []

/-- The datagrams that went out and the one that is begun say this. -/
structure Carries (c : Compound) (said : List (List Message)) (saying : List Message) : Prop where
  means : List.Forall₂ Means c.ready said
  spells : Spells c.packet saying
  silent : c.packet = [] → saying = []
  fits : c.packet.length ≤ maxPacketSize
  sizes : ∀ d ∈ c.ready, d.length ≤ maxPacketSize

def Conveys (c : Compound) (messages : List Message) : Prop :=
  ∃ said saying, Carries c said saying ∧ said.flatten ++ saying = messages

theorem conveys_start : Conveys {} [] :=
  ⟨[], [], ⟨List.Forall₂.nil, spells_nil, fun _ => rfl, Nat.zero_le _, by simp⟩, rfl⟩

theorem datagrams_inj {c : Compound} {ready : List Bytes} {packet : Bytes}
    (h : c.datagrams = ready ++ [packet]) : c.ready = ready ∧ c.packet = packet := by
  obtain ⟨hready, hpacket⟩ := List.append_inj' h rfl
  exact ⟨hready, List.singleton_inj.mp hpacket⟩

/-- Some datagrams of their own. -/
theorem means_chunks (chunks : List Chunk) :
    List.Forall₂ Means (chunks.map Chunk.bytes) (chunks.map Chunk.messages) := by
  induction chunks with
  | nil => exact List.Forall₂.nil
  | cons chunk chunks ih => exact List.Forall₂.cons chunk.spells.means ih

/-- The first chunk goes behind what is in the buffer, and each of the others into a datagram. -/
theorem Conveys.extend {c c' : Compound} {ms : List Message} (h : Conveys c ms) (chunk : Chunk)
    (chunks : List Chunk)
    (hdatagrams : c'.datagrams = c.ready ++ (c.packet ++ chunk.bytes) :: chunks.map Chunk.bytes)
    (hfits : ∀ d ∈ (c.packet ++ chunk.bytes) :: chunks.map Chunk.bytes, d.length ≤ maxPacketSize) :
    Conveys c' (ms ++ (chunk.messages ++ chunks.flatMap Chunk.messages)) := by
  obtain ⟨said, saying, hcarries, rfl⟩ := h
  have hjoined : Spells (c.packet ++ chunk.bytes) (saying ++ chunk.messages) :=
    hcarries.spells.append chunk.spells
  rcases List.eq_nil_or_concat chunks with rfl | ⟨init, last, rfl⟩
  · obtain ⟨hready, hpacket⟩ := datagrams_inj hdatagrams
    refine ⟨said, saying ++ chunk.messages, ⟨?_, ?_, ?_, ?_, ?_⟩, by simp⟩
    · rw [hready]
      exact hcarries.means
    · rw [hpacket]
      exact hjoined
    · rw [hpacket]
      intro hnil
      obtain ⟨hbegun, hnone⟩ := List.append_eq_nil_iff.mp hnil
      rw [hcarries.silent hbegun, chunk.silent hnone]
      rfl
    · rw [hpacket]
      exact hfits _ (by simp)
    · rw [hready]
      exact hcarries.sizes
  · have hsplit : c'.datagrams
        = (c.ready ++ (c.packet ++ chunk.bytes) :: init.map Chunk.bytes) ++ [last.bytes] := by
      rw [hdatagrams]
      simp
    obtain ⟨hready, hpacket⟩ := datagrams_inj hsplit
    refine ⟨said ++ (saying ++ chunk.messages) :: init.map Chunk.messages, last.messages,
      ⟨?_, ?_, ?_, ?_, ?_⟩, by simp [List.flatMap, List.flatten_append]⟩
    · rw [hready]
      exact List.rel_append hcarries.means (List.Forall₂.cons hjoined.means (means_chunks init))
    · rw [hpacket]
      exact last.spells
    · rw [hpacket]
      exact last.silent
    · rw [hpacket]
      exact hfits _ (by simp)
    · rw [hready]
      intro d hd
      rcases List.mem_append.mp hd with hold | hnew
      · exact hcarries.sizes d hold
      · refine hfits d ?_
        rw [List.map_concat]
        rcases List.mem_cons.mp hnew with rfl | hmem
        · simp
        · simp [hmem]

/-- A report is placed whole. -/
theorem Conveys.placed {c : Compound} {ms : List Message} (h : Conveys c ms) (chunk : Chunk)
    (hsize : chunk.bytes.length ≤ maxPacketSize) :
    Conveys (c.placed maxPacketSize chunk.bytes) (ms ++ chunk.messages) := by
  obtain ⟨_, _, hcarries, _⟩ := id h
  rw [Compound.placed]
  split
  · next hroom =>
    have hextended : Conveys { c with packet := c.packet ++ chunk.bytes } _ :=
      h.extend chunk [] rfl (by simpa using hroom)
    simpa using hextended
  · have hextended : Conveys { packet := chunk.bytes, ready := c.ready ++ [c.packet] } _ :=
      h.extend ⟨[], [], spells_nil, fun _ => rfl⟩ [chunk] (by simp [Compound.datagrams])
        (by simpa using ⟨hcarries.fits, hsize⟩)
    simpa using hextended

/-- One piece of a NACK. -/
def nackChunk (nack : Nack) (items : List PackedNack) (hlen : items.length ≤ Nack.maxItems) : Chunk where
  bytes := nack.piece items
  messages := if items = [] then [] else [.nack (Nack.unpack items)]
  spells := by
    rw [Nack.piece]
    split
    · exact spells_nil
    · next hne => exact spells_nack nack hne hlen
  silent := by
    intro hnil
    rw [Nack.piece] at hnil
    split at hnil
    · next hitems => rw [if_pos hitems]
    · exact absurd hnil (by simpa using nack.block_ne_nil items [])

theorem nackChunk_messages (nack : Nack) {items : List PackedNack} (hlen : items.length ≤ Nack.maxItems) :
    (nackChunk nack items hlen).messages.flatMap Message.ids = Nack.unpack items ∧
      (nackChunk nack items hlen).messages.filterMap Message.report = [] := by
  by_cases hne : items = []
  · subst hne
    exact ⟨rfl, rfl⟩
  · have hone : (nackChunk nack items hlen).messages = [.nack (Nack.unpack items)] := if_neg hne
    rw [hone]
    exact ⟨by simp [Message.ids], rfl⟩

/-- The pieces of a NACK as chunks. -/
theorem exists_nackChunks (nack : Nack) {parts : List (List PackedNack)}
    (hparts : ∀ part ∈ parts, part.length ≤ Nack.maxItems) :
    ∃ chunks : List Chunk, chunks.map Chunk.bytes = parts.map nack.piece ∧
      (chunks.flatMap Chunk.messages).flatMap Message.ids = Nack.unpack parts.flatten ∧
      (chunks.flatMap Chunk.messages).filterMap Message.report = [] := by
  induction parts with
  | nil => exact ⟨[], rfl, rfl, rfl⟩
  | cons part parts ih =>
    have hlen := hparts part (by simp)
    obtain ⟨chunks, hbytes, hids, hreports⟩ := ih fun p hp => hparts p (by simp [hp])
    obtain ⟨hids₁, hreports₁⟩ := nackChunk_messages nack hlen
    refine ⟨nackChunk nack part hlen :: chunks, ?_, ?_, ?_⟩
    · rw [List.map_cons, List.map_cons, hbytes]
      rfl
    · rw [List.flatMap_cons, List.flatMap_append, hids₁, hids, List.flatten_cons, Nack.unpack,
        Nack.unpack, Nack.unpack, List.flatMap_append]
    · rw [List.flatMap_cons, List.filterMap_append, hreports₁, hreports]
      rfl

/-- The numbers of a NACK arrive, no matter how it is cut. -/
theorem Conveys.nack {c : Compound} {ms : List Message} (h : Conveys c ms) (nack : Nack)
    {ids : List UInt16} (hids : ids.IsChain Nack.Ahead) :
    ∃ ms', Conveys ((nack.setPacketIds ids).create maxPacketSize c).2 (ms ++ ms') ∧
      ms'.flatMap Message.ids = ids ∧ ms'.filterMap Message.report = [] := by
  obtain ⟨_, _, hcarries, _⟩ := id h
  obtain ⟨c', first, rest, hcreate, hwrites⟩ :=
    Nack.createFrom_writes (nack.setPacketIds ids) (by decide) (Nack.pack ids) c hcarries.fits
  have hbound (part : List PackedNack) (hpart : part ∈ first :: rest) :
      part.length ≤ Nack.maxItems := by
    have hle := hwrites.bounds part hpart
    have hmax : maxPacketSize = 1472 := rfl
    have hfour : Nack.kNackItemLength = 4 := rfl
    have hitems : Nack.maxItems = 65533 := rfl
    rw [hfour, hmax] at hle
    omega
  obtain ⟨chunks, hbytes, hmessages, hreports⟩ :=
    exists_nackChunks (nack.setPacketIds ids) hbound
  have hflat : Nack.unpack (first :: rest).flatten = ids := by
    rw [List.flatten_cons, hwrites.items, Nack.unpack_pack hids]
  match chunks, hbytes with
  | chunk :: chunks, hbytes =>
    obtain ⟨hhead, htail⟩ := List.cons.inj hbytes
    have hdatagrams : c'.datagrams = c.ready ++ (c.packet ++ chunk.bytes) :: chunks.map Chunk.bytes := by
      rw [hwrites.datagrams, hhead, htail]
    have hfits : ∀ d ∈ (c.packet ++ chunk.bytes) :: chunks.map Chunk.bytes,
        d.length ≤ maxPacketSize := by
      rw [hhead, htail]
      exact hwrites.fits
    have hcreated : ((nack.setPacketIds ids).create maxPacketSize c).2 = c' :=
      congrArg Prod.snd hcreate
    refine ⟨(chunk :: chunks).flatMap Chunk.messages, ?_, hmessages.trans hflat, hreports⟩
    rw [hcreated, List.flatMap_cons]
    exact h.extend chunk chunks hdatagrams hfits

/-- What is left in the buffer goes out at the end. -/
theorem Conveys.flushed {c : Compound} {ms : List Message} (h : Conveys c ms) :
    ∃ said, List.Forall₂ Means c.flushed.ready said ∧ said.flatten = ms ∧
      ∀ d ∈ c.flushed.ready, d.length ≤ maxPacketSize := by
  obtain ⟨said, saying, hcarries, rfl⟩ := h
  rw [Compound.flushed]
  dsimp only
  split
  · next hnil =>
    refine ⟨said, hcarries.means, ?_, hcarries.sizes⟩
    rw [hcarries.silent hnil, List.append_nil]
  · refine ⟨said ++ [saying], ?_, by simp, ?_⟩
    · exact List.rel_append hcarries.means (List.Forall₂.cons hcarries.spells.means List.Forall₂.nil)
    · intro d hd
      rcases List.mem_append.mp hd with hold | hlast
      · exact hcarries.sizes d hold
      · rw [List.mem_singleton.mp hlast]
        exact hcarries.fits

end Datagrams

section Calls

namespace Built

def ids : Built → List UInt16
  | nack n => n.packetIds
  | _ => []

/-- As it is parsed, without the octet count. -/
def reports : Built → List SenderReport
  | sr report => [{ report with senderOctetCount := none }]
  | _ => []

/-- What the builders make of a list of numbers that goes forward. -/
inductive Regular : Built → Prop
  | sr (report : SenderReport) (h : report.reportBlocks = []) : Regular (.sr report)
  | rr (report : ReceiverReport) (h : report.reportBlocks.length ≤ 31) : Regular (.rr report)
  | nack (n : Nack) {ids : List UInt16} (h : ids.IsChain Nack.Ahead) :
    Regular (.nack (n.setPacketIds ids))

end Built

theorem Conveys.append {c : Compound} {ms : List Message} (h : Conveys c ms) {p : Built}
    (hp : p.Regular) :
    ∃ ms', Conveys (p.append c) (ms ++ ms') ∧ ms'.flatMap Message.ids = p.ids ∧
      ms'.filterMap Message.report = p.reports := by
  cases hp with
  | sr report hnone =>
    have hlen : report.blockLength ≤ maxPacketSize := by
      rw [SenderReport.blockLength, hnone]
      decide
    have hsize : report.bytes.length ≤ maxPacketSize := by rwa [report.bytes_length]
    have hne : report.bytes ≠ [] := by
      intro hnil
      have hlength := report.bytes_length
      rw [hnil, SenderReport.blockLength, kHeaderSize, List.length_nil] at hlength
      omega
    have hconveys := h.placed ⟨report.bytes, _, spells_senderReport hnone, fun hnil => absurd hnil hne⟩
      hsize
    refine ⟨[.senderReport { report with senderOctetCount := none }], ?_, rfl, rfl⟩
    rw [Built.append, report.create_eq, if_pos hlen]
    exact hconveys
  | rr report hcount =>
    have hlen : report.blockLength ≤ maxPacketSize := by
      have hmax : maxPacketSize = 1472 := rfl
      rw [ReceiverReport.blockLength, kHeaderSize, ReceiverReport.kRrBaseLength, ReportBlock.kLength, hmax]
      omega
    have hsize : report.bytes.length ≤ maxPacketSize := by rwa [report.bytes_length]
    have hconveys := h.placed ⟨report.bytes, [], spells_receiverReport hcount, fun _ => rfl⟩ hsize
    refine ⟨[], ?_, rfl, rfl⟩
    rw [Built.append, report.create_eq, if_pos hlen]
    exact hconveys
  | nack n hids => exact h.nack n hids

theorem Conveys.appendAll {built : List Built} (hbuilt : ∀ p ∈ built, p.Regular) {c : Compound}
    {ms : List Message} (h : Conveys c ms) :
    ∃ ms', Conveys (built.foldl Built.append c) (ms ++ ms') ∧
      ms'.flatMap Message.ids = built.flatMap Built.ids ∧
      ms'.filterMap Message.report = built.flatMap Built.reports := by
  induction built generalizing c ms with
  | nil => exact ⟨[], by simpa using h, rfl, rfl⟩
  | cons p built ih =>
    obtain ⟨ms₁, h₁, hids₁, hreports₁⟩ := h.append (hbuilt p (by simp))
    obtain ⟨ms₂, h₂, hids₂, hreports₂⟩ := ih (fun q hq => hbuilt q (by simp [hq])) h₁
    refine ⟨ms₁ ++ ms₂, by simpa using h₂, ?_, ?_⟩
    · rw [List.flatMap_append, hids₁, hids₂, List.flatMap_cons]
    · rw [List.filterMap_append, hreports₁, hreports₂, List.flatMap_cons]

theorem localRtcpPackets_mean {built : List Built} (hbuilt : ∀ p ∈ built, p.Regular) :
    ∃ said, List.Forall₂ Means (localRtcpPackets built) said ∧
      said.flatten.flatMap Message.ids = built.flatMap Built.ids ∧
      said.flatten.filterMap Message.report = built.flatMap Built.reports ∧
      ∀ d ∈ localRtcpPackets built, d.length ≤ maxPacketSize := by
  obtain ⟨ms, hconveys, hids, hreports⟩ := conveys_start.appendAll hbuilt
  obtain ⟨said, hmeans, hflat, hsizes⟩ := hconveys.flushed
  rw [List.nil_append] at hflat
  exact ⟨said, hmeans, by rw [hflat, hids], by rw [hflat, hreports], hsizes⟩

namespace RTCPSender
variable {s : RTCPSender} {call : Call}

theorem regular_of_mem_build (hids : call.nackList.IsChain Nack.Ahead) {type : UInt32} {p : Built}
    (hp : p ∈ (s.build call type).2) : p.Regular := by
  unfold build at hp
  split_ifs at hp
  · rw [List.mem_singleton.mp hp]
    exact .sr _ rfl
  · rw [List.mem_singleton.mp hp]
    refine .rr _ ?_
    rw [setReportBlocks]
    split
    · exact Nat.zero_le _
    · next hle => exact not_lt.mp hle
  · rw [List.mem_singleton.mp hp]
    exact .nack _ hids
  · cases hp

theorem regular_of_mem_buildFlags (hids : call.nackList.IsChain Nack.Ahead)
    {flags : List ReportFlag} {p : Built} (hp : p ∈ (buildFlags call flags s).2) : p.Regular := by
  induction flags generalizing s with
  | nil => cases hp
  | cons flag flags ih =>
    rcases List.mem_append.mp hp with hfirst | hrest
    · exact regular_of_mem_build hids hfirst
    · exact ih hrest

theorem regular_of_mem_sendRTCP (hids : call.nackList.IsChain Nack.Ahead) {p : Built}
    (hp : p ∈ (s.sendRTCP call).2.1) : p.Regular := by
  unfold sendRTCP computeCompoundRTCPPacket at hp
  dsimp only at hp
  split_ifs at hp
  · cases hp
  · cases hp
  · exact regular_of_mem_buildFlags hids hp
  · exact regular_of_mem_buildFlags hids hp

/-- Whatever a call sends is understood: its datagrams fit, and a receiver in any state takes each for
a list of messages, which are together the sender reports and the numbers of the NACKs of the call. -/
theorem sent_is_heard (s : RTCPSender) {call : Call} (hids : call.nackList.IsChain Nack.Ahead) :
    ∃ said, List.Forall₂ Means (localRtcpPackets (s.sendRTCP call).2.1) said ∧
      said.flatten.flatMap Message.ids = (s.sendRTCP call).2.1.flatMap Built.ids ∧
      said.flatten.filterMap Message.report = (s.sendRTCP call).2.1.flatMap Built.reports ∧
      ∀ d ∈ localRtcpPackets (s.sendRTCP call).2.1, d.length ≤ maxPacketSize :=
  localRtcpPackets_mean fun _ hp => regular_of_mem_sendRTCP hids hp

/-- A receive stream asks for two packets on both sides of the wrap. -/
theorem sent_is_heard_wrapped :
    ∃ said, List.Forall₂ Means (localRtcpPackets
        (({ localSsrc := 1, remoteSsrc := 2, clockRate := 90000, reportInterval := 1000000 } :
          RTCPSender).sendRTCP { packetType := kRtcpNack, nackList := [65535, 3] }).2.1) said ∧
      said.flatten.flatMap Message.ids = [65535, 3] ∧
      said.flatten.filterMap Message.report = [] ∧
      ∀ d ∈ localRtcpPackets
        (({ localSsrc := 1, remoteSsrc := 2, clockRate := 90000, reportInterval := 1000000 } :
          RTCPSender).sendRTCP { packetType := kRtcpNack, nackList := [65535, 3] }).2.1,
        d.length ≤ maxPacketSize :=
  sent_is_heard _ (by decide)

end RTCPSender

end Calls

end Rtcp
end XrtcServer
