import XrtcServer.SdpSources
import XrtcServer.SdpTransport

/-! When the text of a description is read back, and what is read from the lines of a content. -/
namespace XrtcServer
namespace Sdp
open XrtcServer.Stream
variable {desc remote : SessionDescription} {content : MediaContentDescription} {line : Text} {k : MediaType} {dtlsOn : Bool}

/-- The texts of a candidate are addresses, numbers and fixed names. -/
def PlainCandidate (c : Candidate) : Prop :=
  ∀ text ∈ [c.foundation, c.protocol, c.host, c.type], ∀ char ∈ ['=', '/', '\n'], char ∉ text.toList

/-- A content whose tracks can be told apart. -/
structure MediaContentDescription.Proper (content : MediaContentDescription) : Prop where
  readable : ∀ track ∈ content.streams, Readable track
  ids : (content.streams.map (·.id)).Nodup
  ssrcs : (content.streams.flatMap (·.ssrcs)).Nodup
  sources : ∀ track ∈ content.streams, track.ssrcs ≠ []
  groups : content.kind.type = .video → ∀ track ∈ content.streams, ∀ group ∈ track.ssrcGroups, StartsIn track group
  candidates : ∀ c ∈ content.candidates, PlainCandidate c

/-- What is read of the tracks of a medium: the groups of audio tracks are not. -/
def MediaType.readTracks : MediaType → List StreamParams → List StreamParams
  | .audio, tracks => tracks.map bare
  | .video, tracks => tracks

namespace SessionDescription

structure Proper (desc : SessionDescription) : Prop where
  kinds : (desc.contents.map (·.kind.type)).Nodup
  contents : ∀ content ∈ desc.contents, content.Proper
  transports : ∀ content ∈ desc.contents, PlainTransport (desc.getTransportInfo content.mid)

/-- The tracks of a medium. -/
def tracksOf (desc : SessionDescription) (k : MediaType) : Option (List StreamParams) :=
  (desc.getContent k.mid).map fun content => k.readTracks content.streams

/-- The credentials and the fingerprint for a medium. -/
def transportOf (desc : SessionDescription) (mid : String) : String × String × Option SSLFingerprint :=
  let td := (desc.getTransportInfo mid).getD {}
  (td.iceUfrag, td.icePwd, td.identityFingerprint)

/-- The remote description has what the description says of its media. -/
structure Recovers (desc remote : SessionDescription) : Prop where
  tracks : ∀ k, remote.tracksOf k = desc.tracksOf k
  transports : ∀ content ∈ desc.contents, remote.transportOf content.mid = desc.transportOf content.mid
  bundle : remote.getGroupByName "BUNDLE" = desc.getGroupByName "BUNDLE"

def RoundTrips (desc : SessionDescription) (dtlsOn : Bool) : Prop :=
  ∃ remote, setRemoteSdp (desc.toString dtlsOn) = .ok remote ∧ desc.Recovers remote

end SessionDescription

/-- The texts of the tracks of a content have no pattern of another line. -/
structure MediaContentDescription.Legible (content : MediaContentDescription) : Prop where
  tracks : ∀ track ∈ content.streams, ∀ text ∈ [track.id, track.streamId, track.cname], Unmarked text.toList
  groups : ∀ track ∈ content.streams, ∀ group ∈ printedGroups track, Unmarked group.semantics.toList

/-- A description whose text is not misread. -/
structure SessionDescription.Legible (desc : SessionDescription) : Prop where
  bundle : desc.getGroupByName "BUNDLE" = []
  fingerprints : ∀ content ∈ desc.contents, ValidTransport (desc.getTransportInfo content.mid)
  contents : ∀ content ∈ desc.contents, content.Legible

section Lines

/-- A line of a candidate is none of the others. -/
theorem mem_buildCandidates (h : ∀ c ∈ content.candidates, PlainCandidate c) (hline : line ∈ buildCandidates content) :
    Still line ∧ Codecless line ∧ '\n' ∉ line := by
  obtain ⟨c, hc, rfl⟩ := List.mem_map.mp hline
  have hchar : ∀ char ∈ ['=', '/', '\n'], char ∉ "candidate:".toList ++ (c.foundation.toList ++ (" ".toList ++ (decimal c.component ++
      (" ".toList ++ (c.protocol.toList ++ (" ".toList ++ (decimal c.priority.toNat ++ (" ".toList ++ (c.host.toList ++
        (" ".toList ++ (decimal c.port ++ (" typ ".toList ++ c.type.toList)))))))))))) := by
    intro char hchar
    have hfoundation := h c hc c.foundation (by simp) char hchar
    have hprotocol := h c hc c.protocol (by simp) char hchar
    have hhost := h c hc c.host (by simp) char hchar
    have htype := h c hc c.type (by simp) char hchar
    have hdecimal (n : ℤ) : char ∉ decimal n := by
      refine not_mem_decimal ?_ ?_
      · rintro rfl
        revert hchar
        decide
      · intro hdigit
        simp only [List.mem_cons, List.not_mem_nil, or_false] at hchar
        rcases hchar with rfl | rfl | rfl <;> revert hdigit <;> decide
    have hfixed : char ∉ "candidate:".toList ∧ char ∉ " ".toList ∧ char ∉ " typ ".toList := by
      simp only [List.mem_cons, List.not_mem_nil, or_false] at hchar
      rcases hchar with rfl | rfl | rfl <;> decide
    simp only [List.mem_append, hfixed.1, hfixed.2.1, hfixed.2.2, hfoundation, hprotocol, hhost, htype, hdecimal, or_self,
      not_false_eq_true]
  have hmarker : "a=candidate:".toList = 'a' :: '=' :: "candidate:".toList := by decide
  have hname : ∀ name ∈ names, ∀ rest, ¬ name.toList <+: "candidate:".toList ++ rest := by
    simp [names]
  simp only [hmarker, List.append_assoc, List.cons_append]
  generalize c.foundation.toList ++ _ = rest at hchar
  have heq := hchar '=' (by decide)
  refine ⟨still_of_equals heq fun name hmem => hname name hmem rest, ⟨not_found_fmtp heq, ?_⟩, ?_⟩
  · refine found_of_not_mem (by decide : '/' ∈ "rtx/90000".toList) ?_
    simpa using hchar '/' (by decide)
  · simpa using hchar '\n' (by decide)

theorem parseCodecs_fresh (h : found line "level-asymmetry-allowed=1" = false) (rtxCodecId : ℤ) :
    k.parseCodecs (0, rtxCodecId) line = .ok (0, rtxCodecId) := by
  cases k with
  | audio => rfl
  | video =>
    have hfmtp : parseFmtpInfo 0 line = .ok 0 := by
      simp [parseFmtpInfo, parseCodecInfo, h]
    rw [MediaType.parseCodecs, hfmtp]
    rfl

theorem exists_parseCodecs {name value rest : Text} (hname : ':' ∉ name ∧ ' ' ∉ name ∧ name ≠ [])
    (hvalue : ':' ∉ value ∧ ' ' ∉ value ∧ value ≠ []) (ids : ℤ × ℤ) :
    ∃ ids', k.parseCodecs ids (valueLine name value rest) = .ok ids' := by
  cases k with
  | audio => exact ⟨ids, rfl⟩
  | video =>
    have hfmtp : ∃ n, parseFmtpInfo ids.1 (valueLine name value rest) = .ok n := parseCodecInfo_valueLine hname hvalue _ _
    have hrtpmap : ∃ n, parseRtpmapInfo ids.2 (valueLine name value rest) = .ok n := parseCodecInfo_valueLine hname hvalue _ _
    obtain ⟨h264CodecId, hfmtp⟩ := hfmtp
    obtain ⟨rtxCodecId, hrtpmap⟩ := hrtpmap
    rw [MediaType.parseCodecs, hfmtp, hrtpmap]
    by_cases hzero : h264CodecId = 0
    · exact ⟨(h264CodecId, ids.2), by simp [hzero, bind, Except.bind, pure, Except.pure]⟩
    · exact ⟨(h264CodecId, rtxCodecId), by simp [hzero, bind, Except.bind, pure, Except.pure]⟩

/-- The lines of a content after those of its transport, up to those of its tracks. -/
def middleLines (content : MediaContentDescription) : List Text :=
  [midLine content, "a=extmap:3 http://www.ietf.org/id/draft-holmer-rmcat-transport-wide-cc-extensions-01".toList,
   buildRtpDirection content] ++ (if content.rtcpMux then ["a=rtcp-mux".toList] else []) ++ ["a=rtcp-rsize".toList]

def fixedLines : List String :=
  ["c=IN IP4 0.0.0.0", "a=mid:0", "a=mid:1",
   "a=extmap:3 http://www.ietf.org/id/draft-holmer-rmcat-transport-wide-cc-extensions-01", "a=sendrecv", "a=sendonly",
   "a=recvonly", "a=inactive", "a=rtcp-mux", "a=rtcp-rsize"]

theorem still_fixedLines : ∀ text ∈ fixedLines, Still text.toList ∧ Codecless text.toList ∧ '\n' ∉ text.toList := by
  decide +kernel

theorem mem_middleLines (h : line ∈ middleLines content) : ∃ text ∈ fixedLines, line = text.toList := by
  simp only [middleLines, List.mem_append, List.mem_cons, List.not_mem_nil, or_false] at h
  rcases h with (((rfl | rfl | rfl) | h) | rfl)
  · rw [midLine]
    cases content.kind.type
    · exact ⟨"a=mid:0", by decide, rfl⟩
    · exact ⟨"a=mid:1", by decide, rfl⟩
  · exact ⟨_, by decide, rfl⟩
  · rw [buildRtpDirection]
    cases content.direction
    · exact ⟨"a=sendrecv", by decide, rfl⟩
    · exact ⟨"a=sendonly", by decide, rfl⟩
    · exact ⟨"a=recvonly", by decide, rfl⟩
    · exact ⟨"a=inactive", by decide, rfl⟩
  · split at h
    · obtain rfl := List.mem_singleton.mp h
      exact ⟨_, by decide, rfl⟩
    · cases h
  · exact ⟨_, by decide, rfl⟩

end Lines

section Tracks

theorem not_found_sourceTexts {track : StreamParams} {marker : String} (hmarker : marker ∈ markers)
    (h : ∀ text ∈ [track.id, track.streamId, track.cname], found text.toList marker = false) {value : Text}
    (hvalue : value ∈ sourceTexts track) : found value marker = false := by
  have hid := h track.id (by simp)
  have hstream := h track.streamId (by simp)
  simp only [sourceTexts, List.mem_cons, List.not_mem_nil, or_false] at hvalue
  rcases hvalue with rfl | rfl | rfl | rfl
  · exact h track.cname (by simp)
  · rw [List.append_assoc]
    exact (found_append_cons (not_mem_marker (.inr rfl) marker hmarker)).mpr ⟨hstream, hid⟩
  · exact hstream
  · exact hid

/-- The lines of the tracks, each with what it is about. -/
theorem mem_buildSsrc (h : line ∈ buildSsrc content) : ∃ track ∈ content.streams,
    (∃ group ∈ printedGroups track, line = addSsrcGroupLine group) ∨
      ∃ ssrc ∈ track.ssrcs, ∃ attr ∈ attributes, ∃ value ∈ sourceTexts track, line = addSsrcLine ssrc attr.toList value := by
  obtain ⟨track, htrack, h⟩ := List.mem_flatMap.mp h
  refine ⟨track, htrack, ?_⟩
  rw [trackLines_eq] at h
  rcases List.mem_append.mp h with h | h
  · obtain ⟨group, hgroup, rfl⟩ := List.mem_map.mp h
    exact .inl ⟨group, hgroup, rfl⟩
  · obtain ⟨ssrc, hssrc, h⟩ := List.mem_flatMap.mp h
    obtain ⟨attr, hattr, value, hvalue, rfl⟩ := mem_sourceLines h
    exact .inr ⟨ssrc, hssrc, attr, hattr, value, hvalue, rfl⟩

theorem unmarked_buildSsrc (hl : content.Legible) (h : line ∈ buildSsrc content) : Unmarked line := by
  obtain ⟨track, htrack, hline⟩ := mem_buildSsrc h
  intro marker hmarker
  rcases hline with ⟨group, hgroup, rfl⟩ | ⟨ssrc, -, attr, hattr, value, hvalue, rfl⟩
  · rw [found_marker_addSsrcGroupLine (mem_printedGroups.mp hgroup).2 hmarker]
    exact hl.groups track htrack group hgroup marker hmarker
  · rw [found_marker_addSsrcLine hattr hmarker]
    exact not_found_sourceTexts hmarker (fun text htext => hl.tracks track htrack text htext marker hmarker) hvalue

theorem parseCodecs_buildSsrc (hc : content.Proper) (h : line ∈ buildSsrc content) (ids : ℤ × ℤ) :
    ∃ ids', k.parseCodecs ids line = .ok ids' := by
  obtain ⟨track, htrack, hline⟩ := mem_buildSsrc h
  rcases hline with ⟨group, hgroup, rfl⟩ | ⟨ssrc, -, attr, -, value, -, rfl⟩
  · obtain ⟨ssrc, ssrcs, hssrcs⟩ := List.exists_cons_of_ne_nil (mem_printedGroups.mp hgroup).2
    have hword := (hc.readable track htrack).groups group hgroup
    rw [addSsrcGroupLine_eq ssrcs hssrcs]
    exact exists_parseCodecs (by decide) ⟨hword.colon, hword.blank, hword.nonempty⟩ ids
  · obtain ⟨-, hcolon, hblank, -⟩ := not_mem_decimal_separator ssrc.toNat
    rw [addSsrcLine_eq]
    exact exists_parseCodecs (by decide) ⟨hcolon, hblank, decimal_ne_nil _⟩ ids

theorem newline_buildSsrc (hc : content.Proper) (h : line ∈ buildSsrc content) : '\n' ∉ line := by
  obtain ⟨track, htrack, hline⟩ := mem_buildSsrc h
  rcases hline with ⟨group, hgroup, rfl⟩ | ⟨ssrc, -, attr, hattr, value, hvalue, rfl⟩
  · obtain ⟨ssrc, ssrcs, hssrcs⟩ := List.exists_cons_of_ne_nil (mem_printedGroups.mp hgroup).2
    have hsem := ((hc.readable track htrack).groups group hgroup).newline
    have hnumber := (not_mem_decimal_separator ssrc.toNat).2.2.2
    have hnumbers := not_mem_numbers ssrcs (by decide : '\n' ≠ ' ') (by decide) (by decide)
    rw [addSsrcGroupLine_eq ssrcs hssrcs, valueLine]
    simp [hsem, hnumber, hnumbers]
  · have hnumber := (not_mem_decimal_separator ssrc.toNat).2.2.2
    have hname := (not_mem_attribute hattr).2.2.2
    have htext := ((hc.readable track htrack).named.not_mem_value hvalue).2
    rw [addSsrcLine_eq, valueLine]
    simp [hnumber, hname, htext]

end Tracks

section Contents

theorem still_codec (h : line ∈ buildRtpMap content) : Still line ∧ '\n' ∉ line := by
  obtain ⟨name, hname, n, text, rfl, htext⟩ := mem_buildRtpMap h
  refine ⟨still_codecLine hname htext, ?_⟩
  have hnames : ∀ name ∈ codecNames, '\n' ∉ name.toList := by decide
  have hnumber := (not_mem_decimal_separator n).2.2.2
  rw [valueLine]
  simp [hnames name hname, hnumber, htext.newline]

theorem parseCodecs_codec (h : line ∈ buildRtpMap content) (ids : ℤ × ℤ) : ∃ ids', k.parseCodecs ids line = .ok ids' := by
  obtain ⟨name, hname, n, text, rfl, -⟩ := mem_buildRtpMap h
  have hnames : ∀ name ∈ codecNames, ':' ∉ name.toList ∧ ' ' ∉ name.toList ∧ name.toList ≠ [] := by decide
  obtain ⟨-, hcolon, hblank, -⟩ := not_mem_decimal_separator n
  exact exists_parseCodecs (hnames name hname) ⟨hcolon, hblank, decimal_ne_nil n⟩ ids

/-- The lines of a content between its first and those of its tracks. -/
def sideLines (desc : SessionDescription) (content : MediaContentDescription) : List Text :=
  ("c=IN IP4 0.0.0.0".toList :: transportLines (desc.getTransportInfo content.mid)) ++ (middleLines content ++ buildRtpMap content)

theorem contentLines_eq (desc : SessionDescription) (dtlsOn : Bool) (content : MediaContentDescription) :
    desc.contentLines dtlsOn content =
      mediaLine content dtlsOn :: (sideLines desc content ++ (buildSsrc content ++ buildCandidates content)) := by
  simp only [SessionDescription.contentLines, sideLines, middleLines, List.append_assoc, List.cons_append, List.nil_append]

/-- A line that is neither the first of a medium nor one of the tracks. -/
structure Side (line : Text) : Prop where
  medium : found line "m=" = false
  ssrc : found line "a=ssrc:" = false
  group : found line "a=ssrc-group:" = false
  newline : '\n' ∉ line

theorem Still.side (h : Still line) (hline : '\n' ∉ line) : Side line := ⟨h.unmarked "m=" (by decide), h.ssrc, h.group, hline⟩

theorem TransportText.side {text : Text} (h : TransportText text) : Side ('a' :: '=' :: text) := by
  have hssrc : ¬ "ssrc:".toList <+: text := fun hstart => h.ssrc (List.IsPrefix.trans ⟨[':'], rfl⟩ hstart)
  have hgroup : ¬ "ssrc-group:".toList <+: text := fun hstart => h.ssrc (List.IsPrefix.trans ⟨"-group:".toList, rfl⟩ hstart)
  have hline := h.newline
  exact ⟨not_found_medium h.equals, not_found_of_name rfl h.equals hssrc, not_found_of_name rfl h.equals hgroup, by simpa using hline⟩

theorem unmarked_after (hc : content.Proper) (hl : content.Legible)
    (h : line ∈ middleLines content ++ (buildRtpMap content ++ (buildSsrc content ++ buildCandidates content))) :
    Unmarked line := by
  simp only [List.mem_append] at h
  rcases h with h | h | h | h
  · obtain ⟨text, htext, rfl⟩ := mem_middleLines h
    exact (still_fixedLines text htext).1.unmarked
  · exact (still_codec h).1.unmarked
  · exact unmarked_buildSsrc hl h
  · exact (mem_buildCandidates hc.candidates h).1.unmarked

section Parts
variable (hc : content.Proper) (ht : PlainTransport (desc.getTransportInfo content.mid))
  (hv : ValidTransport (desc.getTransportInfo content.mid))
include hc ht hv

theorem side_of_mem (h : line ∈ sideLines desc content ++ buildCandidates content) : Side line := by
  simp only [sideLines, List.cons_append, List.mem_cons, List.mem_append] at h
  rcases h with rfl | (h | h | h) | h
  · have hfixed := still_fixedLines "c=IN IP4 0.0.0.0" (by decide)
    exact hfixed.1.side hfixed.2.2
  · obtain ⟨text, rfl, htext⟩ := mem_transportLines ht hv h
    exact htext.side
  · obtain ⟨text, htext, rfl⟩ := mem_middleLines h
    exact (still_fixedLines text htext).1.side (still_fixedLines text htext).2.2
  · exact (still_codec h).1.side (still_codec h).2
  · have hcandidate := mem_buildCandidates hc.candidates h
    exact hcandidate.1.side hcandidate.2.2

theorem newline_contentLines (h : line ∈ desc.contentLines dtlsOn content) : '\n' ∉ line := by
  rw [contentLines_eq] at h
  simp only [List.mem_cons, List.mem_append] at h
  rcases h with rfl | h | h | h
  · obtain ⟨fields, hline, -, -, hnewline, -⟩ := ParseState.mediaLine_eq content dtlsOn
    have hmid : '\n' ∉ content.mid.toList := (ParseState.not_mem_mid content.kind.type).2.2.2
    rw [hline]
    simp [hmid, hnewline]
  · exact (side_of_mem hc ht hv (List.mem_append_left _ h)).newline
  · exact newline_buildSsrc hc h
  · exact (side_of_mem hc ht hv (List.mem_append_right _ h)).newline

/-- The sources that are read are those of the tracks. -/
theorem foldlM_infos : (sideLines desc content ++ (buildSsrc content ++ buildCandidates content)).foldlM parseSsrcInfo [] =
    .ok (content.streams.flatMap sourceInfos) := by
  have hside : (sideLines desc content).foldlM parseSsrcInfo [] = .ok [] := ExceptFolds.foldlM_skip fun line h =>
    parseSsrcInfo_of_not_found (side_of_mem hc ht hv (List.mem_append_left _ h)).ssrc
  rw [ExceptFolds.foldlM_append_eq hside, buildSsrc,
    ExceptFolds.foldlM_append_eq (foldlM_trackLines_infos hc.ssrcs hc.readable)]
  exact ExceptFolds.foldlM_skip fun line h => parseSsrcInfo_of_not_found (side_of_mem hc ht hv (List.mem_append_right _ h)).ssrc

/-- The groups that are read are those of the tracks. -/
theorem foldlM_groups : (sideLines desc content ++ (buildSsrc content ++ buildCandidates content)).foldlM parseSsrcGroupInfo [] =
    .ok (content.streams.flatMap printedGroups) := by
  have hside : (sideLines desc content).foldlM parseSsrcGroupInfo [] = .ok [] := ExceptFolds.foldlM_skip fun line h =>
    parseSsrcGroupInfo_of_not_found (side_of_mem hc ht hv (List.mem_append_left _ h)).group
  rw [ExceptFolds.foldlM_append_eq hside, buildSsrc, ExceptFolds.foldlM_append_eq (foldlM_trackLines_groups hc.readable)]
  exact ExceptFolds.foldlM_skip fun line h =>
    parseSsrcGroupInfo_of_not_found (side_of_mem hc ht hv (List.mem_append_right _ h)).group

/-- No line of a codec fails to be read. -/
theorem exists_foldlM_codecs (rtxCodecId : ℤ) :
    ∃ ids, (sideLines desc content ++ (buildSsrc content ++ buildCandidates content)).foldlM k.parseCodecs (0, rtxCodecId) =
      .ok ids := by
  have hfirst : ("c=IN IP4 0.0.0.0".toList :: transportLines (desc.getTransportInfo content.mid)).foldlM k.parseCodecs
      (0, rtxCodecId) = .ok (0, rtxCodecId) := by
    refine ExceptFolds.foldlM_skip fun line h => parseCodecs_fresh ?_ rtxCodecId
    rcases List.mem_cons.mp h with rfl | h
    · exact (still_fixedLines "c=IN IP4 0.0.0.0" (by decide)).2.1.fmtp
    · obtain ⟨text, rfl, htext⟩ := mem_transportLines ht hv h
      exact not_found_fmtp htext.equals
  rw [sideLines, List.append_assoc, ExceptFolds.foldlM_append_eq hfirst]
  refine ExceptFolds.foldlM_total (fun line h ids => ?_) (0, rtxCodecId)
  simp only [List.mem_append] at h
  rcases h with (h | h) | h | h
  · obtain ⟨text, htext, rfl⟩ := mem_middleLines h
    exact ⟨ids, parseCodecs_codecless (still_fixedLines text htext).2.1⟩
  · exact parseCodecs_codec h ids
  · exact parseCodecs_buildSsrc hc h ids
  · exact ⟨ids, parseCodecs_codecless (mem_buildCandidates hc.candidates h).2.1⟩

variable (hl : content.Legible)
include hl

/-- The transport that is read is that of the content. -/
theorem foldlM_transport : (sideLines desc content ++ (buildSsrc content ++ buildCandidates content)).foldlM parseTransportInfo
    { mid := k.mid } = .ok (readTransport k (desc.getTransportInfo content.mid)) := by
  have hfirst : parseTransportInfo { mid := k.mid } "c=IN IP4 0.0.0.0".toList = .ok { mid := k.mid } :=
    parseTransportInfo_unmarked (still_fixedLines "c=IN IP4 0.0.0.0" (by decide)).1.unmarked
  rw [sideLines, List.append_assoc, List.append_assoc, List.cons_append, ExceptFolds.foldlM_cons_ok hfirst,
    ExceptFolds.foldlM_append_eq (foldlM_transportLines ht hv)]
  exact ExceptFolds.foldlM_skip fun line h => parseTransportInfo_unmarked (unmarked_after hc hl h)

end Parts

end Contents

end Sdp
end XrtcServer
