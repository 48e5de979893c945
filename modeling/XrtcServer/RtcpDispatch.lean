import XrtcServer.RtcpReceiver

/-! What the observer of an RTCP receiver is told of a well-formed compound packet. -/
namespace XrtcServer
namespace Rtcp
open ByteFormat StructLayout

section Blocks
variable (b : Block)

theorem Body.fmt_lt {body : Body} (h : body.WellFormed) : body.fmt < 32 := by
  cases body with
  | senderReport _ _ _ _ _ reports _ => exact Nat.lt_succ_of_le h.1
  | receiverReport _ reports _ => exact Nat.lt_succ_of_le h.1
  | nack _ _ _ => exact (by decide : Nack.kFeedbackMessageType < 32)
  | other _ _ _ => exact h.1

theorem Body.payload_mod {body : Body} (h : body.WellFormed) : body.payload.length % 4 = 0 := by
  cases body with
  | senderReport _ _ _ _ _ reports extension =>
    have hext : extension.length % 4 = 0 := h.2
    simp only [payload, List.length_append, writeUint32_length, reports_length, ReportBlock.kLength]
    omega
  | receiverReport _ reports extension =>
    have hext : extension.length % 4 = 0 := h.2
    simp only [payload, List.length_append, writeUint32_length, reports_length, ReportBlock.kLength]
    omega
  | nack _ _ items =>
    simp only [payload, List.length_append, writeUint32_length, Nack.items_length, Nack.kNackItemLength]
    omega
  | other _ _ payload => exact h.2.1

theorem Block.padding_mod : b.padding.length % 4 = 0 := by
  rcases b.padding_length with h | h
  · simp [h]
  · exact h.1

theorem Block.content_mod : b.content.length % 4 = 0 := by
  have hpayload := Body.payload_mod b.wellFormed
  have hpadding := b.padding_mod
  rw [content, List.length_append]
  omega

/-- The header of a block that is followed by others. -/
def Block.header (rest : Bytes) : CommonHeader where
  countOrFmt := UInt8.ofNat b.body.fmt
  packetType := b.body.packetType
  paddingSize := 0
  payloadSize := b.content.length
  payload := b.content ++ rest

theorem Block.parse_encode (rest : Bytes) : CommonHeader.parse (b.encode ++ rest) = some (b.header rest) := by
  have hlen : b.content.length < 4 * 2^16 := b.length_lt
  have hmod := b.content_mod
  rw [encode, List.append_assoc]
  exact parse_createHeader (Body.fmt_lt b.wellFormed) (by omega) (by omega) rest

theorem Block.nextPacket_header (rest : Bytes) : (b.header rest).nextPacket = rest := by
  simp [CommonHeader.nextPacket, header]

theorem Block.encode_ne_nil (rest : Bytes) : b.encode ++ rest ≠ [] := by
  simp [encode, createHeader]

theorem Block.header_count (rest : Bytes) : (b.header rest).countOrFmt.toNat = b.body.fmt := by
  have hlt := Body.fmt_lt b.wellFormed
  rw [header, UInt8.toNat_ofNat', Nat.mod_eq_of_lt (by omega)]

end Blocks

/-- A report block that the observer is to hear of. -/
def Reportable (ssrcs : List UInt32) (r : ReportBlock) : Prop := r.sourceSsrc ∈ ssrcs ∧ r.lastSr ≠ 0

instance (ssrcs : List UInt32) : DecidablePred (Reportable ssrcs) := fun _ => inferInstanceAs (Decidable (_ ∧ _))

/-- The items that the padding of a NACK block is taken for. -/
def Block.paddingItems (b : Block) : List PackedNack := Nack.readItems (b.padding.length / 4) b.padding

/-- The calls of the observer for a block. -/
def Block.observations (audio : Bool) (ssrcs : List UInt32) (clock : Clock) (b : Block) : List Observation :=
  match b.body with
  | .senderReport _ _ _ _ _ reports _ => (reports.filter (Reportable ssrcs)).map fun r =>
      .networkInfo (RTCPReceiver.rttMs clock r) r.packetsLost r.fractionLost r.jitter
  | .nack _ _ items => [.nackReceived audio (Nack.unpack (items ++ b.paddingItems))]
  | .receiverReport .. => []
  | .other .. => []

namespace RTCPReceiver

/-- From one state to the next the observer hears of some things. -/
structure Told (s s' : RTCPReceiver) (os : List Observation) : Prop where
  audio_eq : s'.audio = s.audio
  ssrcs_eq : s'.registeredSsrcs = s.registeredSsrcs
  log_eq : s'.rtpRtcpModuleObserver = s.rtpRtcpModuleObserver.map (· ++ os)

theorem Told.refl (s : RTCPReceiver) : Told s s [] := ⟨rfl, rfl, by simp⟩

theorem Told.trans {s s' s'' : RTCPReceiver} {os os' : List Observation} (h : Told s s' os) (h' : Told s' s'' os') :
    Told s s'' (os ++ os') :=
  ⟨h'.audio_eq.trans h.audio_eq, h'.ssrcs_eq.trans h.ssrcs_eq, by
    rw [h'.log_eq, h.log_eq, Option.map_map]
    congr 1
    funext log
    simp⟩

theorem told_tell (s : RTCPReceiver) (o : Observation) : Told s (s.tell o) [o] := ⟨rfl, rfl, rfl⟩

theorem told_handleReportBlock (s : RTCPReceiver) (clock : Clock) (r : ReportBlock) :
    Told s (s.handleReportBlock clock r) (if Reportable s.registeredSsrcs r then
      [.networkInfo (rttMs clock r) r.packetsLost r.fractionLost r.jitter] else []) := by
  have hmem : s.isRegisteredSsrc r.sourceSsrc = true ↔ r.sourceSsrc ∈ s.registeredSsrcs := by
    rw [isRegisteredSsrc, List.any_eq_true]
    constructor
    · rintro ⟨ssrc, hssrc, heq⟩
      rwa [of_decide_eq_true heq] at hssrc
    · intro hssrc
      exact ⟨_, hssrc, decide_eq_true rfl⟩
  rw [handleReportBlock]
  by_cases hssrc : r.sourceSsrc ∈ s.registeredSsrcs
  · rw [if_neg (not_not_intro (hmem.mpr hssrc))]
    by_cases hlast : r.lastSr ≠ 0
    · rw [if_pos (show Reportable s.registeredSsrcs r from ⟨hssrc, hlast⟩)]
      simp only [if_pos hlast]
      exact ⟨rfl, rfl, rfl⟩
    · rw [if_neg fun h : Reportable s.registeredSsrcs r => hlast h.2]
      simp only [if_neg hlast]
      exact ⟨rfl, rfl, by simp⟩
  · rw [if_pos fun h => hssrc (hmem.mp h), if_neg fun h : Reportable s.registeredSsrcs r => hssrc h.1]
    exact Told.refl s

theorem told_reports (s : RTCPReceiver) (clock : Clock) (reports : List ReportBlock) :
    Told s (reports.foldl (·.handleReportBlock clock ·) s) ((reports.filter (Reportable s.registeredSsrcs)).map fun r =>
      .networkInfo (rttMs clock r) r.packetsLost r.fractionLost r.jitter) := by
  induction reports generalizing s with
  | nil => exact Told.refl s
  | cons r reports ih =>
    have hfirst := told_handleReportBlock s clock r
    have htold := hfirst.trans (ih (s.handleReportBlock clock r))
    rw [hfirst.ssrcs_eq] at htold
    rw [List.foldl_cons, List.filter_cons]
    split at htold <;> simpa [*] using htold

theorem told_keepReport (s : RTCPReceiver) (clock : Clock) (report : SenderReport) :
    Told s (s.keepReport clock report) [] := by
  rw [keepReport]
  split <;> split <;> exact ⟨rfl, rfl, by simp⟩

theorem told_skipPacket (s : RTCPReceiver) : Told s s.skipPacket [] := ⟨rfl, rfl, by simp [skipPacket]⟩

section Dispatch
variable {b : Block}

/-- The report blocks of a sender report are read back. -/
theorem parse_senderReport {ssrc rtpTimestamp packetCount octetCount : UInt32} {ntpTime : NtpTime}
    {reports : List ReportBlock} {extension : Bytes}
    (hbody : b.body = .senderReport ssrc ntpTime rtpTimestamp packetCount octetCount reports extension) (rest : Bytes) :
    ∃ report, SenderReport.parse (b.header rest) = some report ∧ report.reportBlocks = reports := by
  have hcount : (b.header rest).countOrFmt.toNat = reports.length := by
    rw [b.header_count, hbody]
    rfl
  have hfixed : (writeUint32 ssrc ++ writeUint32 ntpTime.seconds ++ writeUint32 ntpTime.fractions ++
      writeUint32 rtpTimestamp ++ writeUint32 packetCount ++ writeUint32 octetCount).length =
        SenderReport.kSenderBaseLength := by
    simp [SenderReport.kSenderBaseLength]
  have hpayload : (b.header rest).payload.drop SenderReport.kSenderBaseLength =
      reports.flatMap ReportBlock.create ++ (extension ++ (b.padding ++ rest)) := by
    have hcontent : (b.header rest).payload = b.body.payload ++ b.padding ++ rest := rfl
    rw [hcontent, hbody, Body.payload, ← hfixed]
    simp only [List.append_assoc _ _ (b.padding ++ rest), List.append_assoc _ b.padding rest, List.drop_left]
  have hsize : ¬ (b.header rest).payloadSize < SenderReport.kSenderBaseLength + reports.length * ReportBlock.kLength := by
    have hlen : (b.header rest).payloadSize = (b.body.payload ++ b.padding).length := rfl
    rw [hlen, hbody, Body.payload, List.length_append, List.length_append, hfixed, List.length_append, reports_length]
    omega
  rw [SenderReport.parse]
  simp only [hcount, if_neg hsize]
  refine ⟨_, rfl, ?_⟩
  rw [hpayload, readReports_append]

/-- The items of a NACK block are read back, and its padding is read as items too. -/
theorem parse_nack {senderSsrc mediaSsrc : UInt32} {items : List PackedNack}
    (hbody : b.body = .nack senderSsrc mediaSsrc items) (rest : Bytes) :
    ∃ nack, Nack.parse (b.header rest) = some nack ∧ nack.packetIds = Nack.unpack (items ++ b.paddingItems) := by
  have hne : items ≠ [] := by
    have h := b.wellFormed
    rwa [hbody] at h
  have hpos := List.length_pos_iff.mpr hne
  have hmod := b.padding_mod
  have hssrcs : (writeUint32 senderSsrc ++ writeUint32 mediaSsrc).length = kCommonFeedbackLength := by
    simp [kCommonFeedbackLength]
  have hpayload : (b.header rest).payload.drop kCommonFeedbackLength =
      items.flatMap PackedNack.bytes ++ (b.padding ++ rest) := by
    have hcontent : (b.header rest).payload = b.body.payload ++ b.padding ++ rest := rfl
    rw [hcontent, hbody, Body.payload, ← hssrcs]
    simp only [List.append_assoc _ _ (b.padding ++ rest), List.append_assoc _ b.padding rest, List.drop_left]
  have hlen : (b.header rest).payloadSize = kCommonFeedbackLength + items.length * Nack.kNackItemLength +
      b.padding.length := by
    have hlen : (b.header rest).payloadSize = (b.body.payload ++ b.padding).length := rfl
    rw [hlen, hbody, Body.payload, List.length_append, List.length_append, hssrcs, Nack.items_length]
  have hcount : ((b.header rest).payloadSize - kCommonFeedbackLength) / Nack.kNackItemLength =
      items.length + b.padding.length / 4 := by
    rw [hlen]
    simp only [kCommonFeedbackLength, Nack.kNackItemLength]
    omega
  have hitems : Nack.readItems (items.length + b.padding.length / 4)
      (items.flatMap PackedNack.bytes ++ (b.padding ++ rest)) = items ++ b.paddingItems := by
    rw [Nack.readItems_add, Block.paddingItems, Nack.readItems_left (by simp only [Nack.kNackItemLength]; omega)]
  rw [Nack.parse, if_neg (by rw [hlen]; simp only [kCommonFeedbackLength, Nack.kNackItemLength]; omega)]
  refine ⟨_, rfl, ?_⟩
  simp only [hcount, hpayload, hitems]

theorem told_handleBlock (s : RTCPReceiver) (clock : Clock) (b : Block) (rest : Bytes) :
    Told s (s.handleBlock clock (b.header rest)) (b.observations s.audio s.registeredSsrcs clock) := by
  have htype : (b.header rest).packetType = b.body.packetType := rfl
  have hfmt := b.header_count rest
  have hwf := b.wellFormed
  rw [handleBlock, htype, hfmt, Block.observations]
  cases hbody : b.body with
  | senderReport ssrc ntpTime rtpTimestamp packetCount octetCount reports extension =>
    obtain ⟨report, hparse, hreports⟩ := parse_senderReport hbody rest
    have hsr : (Body.senderReport ssrc ntpTime rtpTimestamp packetCount octetCount reports extension).packetType =
        SenderReport.kPacketType := rfl
    rw [if_pos hsr, handleSenderReport, hparse]
    have htold := (told_keepReport s clock report).trans (told_reports (s.keepReport clock report) clock reports)
    rw [(told_keepReport s clock report).ssrcs_eq] at htold
    simpa only [hreports, List.nil_append] using htold
  | receiverReport ssrc reports extension =>
    have hrr : (Body.receiverReport ssrc reports extension).packetType = ReceiverReport.kPacketType := rfl
    rw [if_neg (hrr ▸ by decide), if_neg (hrr ▸ by decide)]
    exact Told.refl s
  | nack senderSsrc mediaSsrc items =>
    obtain ⟨nack, hparse, hids⟩ := parse_nack hbody rest
    have htype : (Body.nack senderSsrc mediaSsrc items).packetType = Nack.kPacketType := rfl
    have hfmt : (Body.nack senderSsrc mediaSsrc items).fmt = Nack.kFeedbackMessageType := rfl
    rw [if_neg (htype ▸ by decide), if_pos htype, if_pos hfmt, handleNack, hparse]
    have htold : Told s (s.tell (.nackReceived s.audio nack.packetIds))
        [.nackReceived s.audio (Nack.unpack (items ++ b.paddingItems))] := hids ▸ told_tell s _
    exact htold
  | other fmt packetType payload =>
    rw [hbody] at hwf
    obtain ⟨-, -, hsr, -, hnack⟩ := hwf
    have htype : (Body.other fmt packetType payload).packetType = packetType := rfl
    have hfmt : (Body.other fmt packetType payload).fmt = fmt := rfl
    rw [if_neg (htype ▸ hsr)]
    split
    · rename_i h
      rw [if_neg (hfmt ▸ hnack (htype ▸ h))]
      exact told_skipPacket s
    · exact Told.refl s

/-- Each block of a packet is taken apart once, in order. -/
theorem told_parseBlocks (s : RTCPReceiver) (clock : Clock) (first : Bool) (blocks : List Block) :
    Told s (parseBlocks clock s first (encodeBlocks blocks))
      (blocks.flatMap (Block.observations s.audio s.registeredSsrcs clock)) := by
  induction blocks generalizing s first with
  | nil =>
    have hnil : encodeBlocks [] = [] := rfl
    rw [hnil, parseBlocks, if_pos rfl]
    exact Told.refl s
  | cons b blocks ih =>
    have hcons : encodeBlocks (b :: blocks) = b.encode ++ encodeBlocks blocks := rfl
    have hfirst := told_handleBlock s clock b (encodeBlocks blocks)
    have htold := hfirst.trans (ih (s.handleBlock clock (b.header (encodeBlocks blocks))) false)
    rw [hfirst.audio_eq, hfirst.ssrcs_eq] at htold
    rw [hcons, parseBlocks_of_some (b.encode_ne_nil _) (b.parse_encode _), b.nextPacket_header,
      List.flatMap_cons]
    exact htold

theorem told_incomingRtcpPacket (s : RTCPReceiver) (clock : Clock) (blocks : List Block) :
    Told s (s.incomingRtcpPacket clock (encodeBlocks blocks))
      (blocks.flatMap (Block.observations s.audio s.registeredSsrcs clock)) := by
  have htold := told_parseBlocks s clock true blocks
  rw [incomingRtcpPacket]
  split
  · rename_i hnil
    rw [hnil, parseBlocks, if_pos rfl] at htold
    exact htold
  · exact htold

end Dispatch

end RTCPReceiver

section Observations

/-- Loss, fraction and jitter of the calls of `OnNetworkInfo`. -/
def networkInfos (os : List Observation) : List (ℤ × UInt8 × UInt32) :=
  os.filterMap fun
    | .networkInfo _ packetsLost fractionLost jitter => some (packetsLost, fractionLost, jitter)
    | .nackReceived _ _ => none

/-- The sequence numbers of the calls of `OnNackReceived`. -/
def nacks (os : List Observation) : List (List UInt16) :=
  os.filterMap fun
    | .networkInfo _ _ _ _ => none
    | .nackReceived _ packetIds => some packetIds

/-- What the observer should hear of the report blocks of a packet. -/
def reportInfos (ssrcs : List UInt32) (reports : List ReportBlock) : List (ℤ × UInt8 × UInt32) :=
  (reports.filter (Reportable ssrcs)).map fun r => (r.packetsLost, r.fractionLost, r.jitter)

/-- The numbers of a NACK block. -/
def Body.packetIds : Body → List (List UInt16)
  | nack _ _ items => [Nack.unpack items]
  | senderReport .. => []
  | receiverReport .. => []
  | other .. => []

/-- Every report block and every NACK block is told of once, in order. -/
def Reported (ssrcs : List UInt32) (blocks : List Block) (os : List Observation) : Prop :=
  networkInfos os = reportInfos ssrcs (blocks.flatMap (·.body.reports)) ∧
    nacks os = blocks.flatMap (·.body.packetIds)

/-- Nothing of a block is lost, and nothing is taken for a part of it. -/
def Heard (ssrcs : List UInt32) (b : Block) : Prop :=
  match b.body with
  | .receiverReport _ reports _ => ∀ r ∈ reports, ¬ Reportable ssrcs r
  | .nack _ _ _ => b.padding = []
  | .senderReport .. => True
  | .other .. => True

theorem networkInfos_append (os os' : List Observation) : networkInfos (os ++ os') = networkInfos os ++ networkInfos os' :=
  List.filterMap_append

theorem nacks_append (os os' : List Observation) : nacks (os ++ os') = nacks os ++ nacks os' := List.filterMap_append

theorem reportInfos_append (ssrcs : List UInt32) (rs rs' : List ReportBlock) :
    reportInfos ssrcs (rs ++ rs') = reportInfos ssrcs rs ++ reportInfos ssrcs rs' := by
  rw [reportInfos, List.filter_append, List.map_append]
  rfl

theorem reportInfos_eq_nil {ssrcs : List UInt32} {rs : List ReportBlock} :
    reportInfos ssrcs rs = [] ↔ ∀ r ∈ rs, ¬ Reportable ssrcs r := by
  simp [reportInfos]

theorem networkInfos_reports (clock : Clock) (ssrcs : List UInt32) (rs : List ReportBlock) :
    networkInfos ((rs.filter (Reportable ssrcs)).map fun r =>
      .networkInfo (RTCPReceiver.rttMs clock r) r.packetsLost r.fractionLost r.jitter) = reportInfos ssrcs rs := by
  rw [networkInfos, List.filterMap_map, reportInfos, ← List.filterMap_eq_map]
  rfl

theorem nacks_reports (clock : Clock) (rs : List ReportBlock) :
    nacks (rs.map fun r =>
      .networkInfo (RTCPReceiver.rttMs clock r) r.packetsLost r.fractionLost r.jitter) = [] := by
  rw [nacks, List.filterMap_map, List.filterMap_eq_nil_iff]
  intro r _
  rfl

variable {audio : Bool} {ssrcs : List UInt32} {clock : Clock} (b : Block)

theorem paddingItems_eq_nil : Nack.unpack b.paddingItems = [] ↔ b.padding = [] := by
  have hmod := b.padding_mod
  constructor
  · intro h
    rw [Block.paddingItems] at h
    cases hn : b.padding.length / 4 with
    | zero => exact List.length_eq_zero_iff.mp (by omega)
    | succ n =>
      rw [hn, Nack.readItems, Nack.unpack, List.flatMap_cons] at h
      cases h
  · intro h
    rw [Block.paddingItems, h]
    rfl

/-- The observer hears at most the reports of a block, and at least its numbers. -/
theorem heard_iff : Heard ssrcs b ↔
    networkInfos (b.observations audio ssrcs clock) = reportInfos ssrcs b.body.reports ∧
      nacks (b.observations audio ssrcs clock) = b.body.packetIds := by
  rw [Heard, Block.observations]
  cases b.body with
  | senderReport ssrc ntpTime rtpTimestamp packetCount octetCount reports extension =>
    exact iff_of_true trivial ⟨networkInfos_reports clock ssrcs reports, nacks_reports clock _⟩
  | receiverReport ssrc reports extension =>
    have hinfos : networkInfos [] = [] := rfl
    dsimp only
    rw [← reportInfos_eq_nil, hinfos]
    exact ⟨fun h => ⟨h.symm, rfl⟩, fun h => h.1.symm⟩
  | nack senderSsrc mediaSsrc items =>
    have hinfos : networkInfos [.nackReceived audio (Nack.unpack (items ++ b.paddingItems))] = [] := rfl
    have hnacks : nacks [.nackReceived audio (Nack.unpack (items ++ b.paddingItems))] =
      [Nack.unpack (items ++ b.paddingItems)] := rfl
    have happend : Nack.unpack (items ++ b.paddingItems) = Nack.unpack items ++ Nack.unpack b.paddingItems :=
      List.flatMap_append
    dsimp only
    rw [← paddingItems_eq_nil, hinfos, hnacks, Body.packetIds, happend, List.cons.injEq, List.append_right_eq_self]
    exact ⟨fun h => ⟨rfl, h, rfl⟩, fun h => h.2.1⟩
  | other fmt packetType payload => exact iff_of_true trivial ⟨rfl, rfl⟩

theorem infos_length_le : (networkInfos (b.observations audio ssrcs clock)).length ≤
    (reportInfos ssrcs b.body.reports).length := by
  rw [Block.observations]
  cases b.body with
  | senderReport ssrc ntpTime rtpTimestamp packetCount octetCount reports extension =>
    exact le_of_eq (congrArg List.length (networkInfos_reports clock ssrcs reports))
  | receiverReport ssrc reports extension => exact Nat.zero_le _
  | nack senderSsrc mediaSsrc items => exact Nat.zero_le _
  | other fmt packetType payload => exact Nat.zero_le _

theorem nacks_length : (nacks (b.observations audio ssrcs clock)).length = b.body.packetIds.length := by
  rw [Block.observations]
  cases b.body with
  | senderReport ssrc ntpTime rtpTimestamp packetCount octetCount reports extension =>
    exact congrArg List.length (nacks_reports clock _)
  | receiverReport ssrc reports extension => rfl
  | nack senderSsrc mediaSsrc items => rfl
  | other fmt packetType payload => rfl

theorem infos_length_le_flatMap (blocks : List Block) :
    (networkInfos (blocks.flatMap (Block.observations audio ssrcs clock))).length ≤
      (reportInfos ssrcs (blocks.flatMap (·.body.reports))).length := by
  induction blocks with
  | nil => exact Nat.zero_le _
  | cons b blocks ih =>
    rw [List.flatMap_cons, List.flatMap_cons, networkInfos_append, reportInfos_append, List.length_append,
      List.length_append]
    exact Nat.add_le_add (infos_length_le b) ih

/-- A packet is reported when each of its blocks is: no block makes up for another. -/
theorem reported_iff (audio : Bool) (ssrcs : List UInt32) (clock : Clock) (blocks : List Block) :
    Reported ssrcs blocks (blocks.flatMap (Block.observations audio ssrcs clock)) ↔ ∀ b ∈ blocks, Heard ssrcs b := by
  induction blocks with
  | nil => exact iff_of_true ⟨rfl, rfl⟩ (by simp)
  | cons b blocks ih =>
    rw [List.forall_mem_cons, ← ih, @heard_iff audio ssrcs clock b, Reported, Reported, List.flatMap_cons,
      List.flatMap_cons, List.flatMap_cons, networkInfos_append, reportInfos_append, nacks_append]
    constructor
    · rintro ⟨hinfos, hnacks⟩
      have hlength := congrArg List.length hinfos
      rw [List.length_append, List.length_append] at hlength
      have hle := @infos_length_le audio ssrcs clock b
      have hrest := @infos_length_le_flatMap audio ssrcs clock blocks
      obtain ⟨hfirst, hothers⟩ := List.append_inj hinfos (by omega)
      obtain ⟨hfirst', hothers'⟩ := List.append_inj hnacks (nacks_length b)
      exact ⟨⟨hfirst, hfirst'⟩, hothers, hothers'⟩
    · rintro ⟨⟨hfirst, hfirst'⟩, hothers, hothers'⟩
      rw [hfirst, hfirst', hothers, hothers']
      exact ⟨rfl, rfl⟩

end Observations

/-- A receiver with an observer reports a packet exactly when no receiver report in it is
about a registered source, and no NACK block is padded: receiver reports are not handled, and
the test for padding never holds. -/
theorem reports_iff (s : RTCPReceiver) (log : List Observation) (clock : Clock) (blocks : List Block) :
    (∃ os, ({ s with rtpRtcpModuleObserver := some log }.incomingRtcpPacket clock
        (encodeBlocks blocks)).rtpRtcpModuleObserver = some (log ++ os) ∧ Reported s.registeredSsrcs blocks os) ↔
      ∀ b ∈ blocks, Heard s.registeredSsrcs b := by
  have htold := RTCPReceiver.told_incomingRtcpPacket { s with rtpRtcpModuleObserver := some log } clock blocks
  rw [← reported_iff s.audio s.registeredSsrcs clock blocks, htold.log_eq]
  constructor
  · rintro ⟨os, hlog, hos⟩
    rwa [← List.append_cancel_left (Option.some.inj hlog)] at hos
  · intro h
    exact ⟨_, rfl, h⟩

section Counterexample

/-- A block about source 1 that has seen a sender report. -/
def lossReport : ReportBlock := ⟨1, 64, 5, 100, 7, 1, 1, by decide⟩

def lossBody : Body := .receiverReport 2 [lossReport] []

/-- A receiver report and the name of its sender. -/
def lossBlocks : List Block :=
  [⟨lossBody, [], ⟨by decide, rfl⟩, .inl rfl, by decide⟩,
   ⟨.other 1 202 [0, 0, 0, 2, 1, 1, 97, 0], [], ⟨by decide, rfl, by decide, by decide, by decide⟩, .inl rfl, by decide⟩]

def lossReceiver : RTCPReceiver := { audio := false, registeredSsrcs := [1], rtpRtcpModuleObserver := some [] }
def lossClock : Clock := ⟨0, ⟨0, 0⟩, fun _ => ⟨0, 0⟩⟩

theorem receiverReport_not_told :
    reportInfos lossReceiver.registeredSsrcs (lossBlocks.flatMap (·.body.reports)) = [(5, 64, 7)] ∧
      (lossReceiver.incomingRtcpPacket lossClock (encodeBlocks lossBlocks)).rtpRtcpModuleObserver = some [] := by
  have htold := RTCPReceiver.told_incomingRtcpPacket lossReceiver lossClock lossBlocks
  exact ⟨rfl, htold.log_eq⟩

end Counterexample

end Rtcp
end XrtcServer
