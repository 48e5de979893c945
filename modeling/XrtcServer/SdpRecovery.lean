import XrtcServer.SdpContent

/-! A description whose texts have no pattern of another line in them is read back from its text. -/
namespace XrtcServer
namespace Sdp
open XrtcServer.Stream
variable {desc : SessionDescription} {content : MediaContentDescription} {line : Text} {k : MediaType} {dtlsOn : Bool}
  {s s' : ParseState}

section Contents

/-- No line of the medium was read yet. -/
structure Fresh (k : MediaType) (s : ParseState) : Prop where
  media : s.media k = {}
  groups : k = .video → s.videoSsrcGroups = []
  codec : k = .video → s.h264CodecId = 0

/-- What the lines of a content are read as. -/
def readMedia (desc : SessionDescription) (content : MediaContentDescription) : MediaState where
  td := readTransport content.kind.type (desc.getTransportInfo content.mid)
  ssrcInfo := content.streams.flatMap sourceInfos
  existPushSource := true

/-- The content was read, and the rest is as it was. -/
structure After (desc : SessionDescription) (content : MediaContentDescription) (s s' : ParseState) : Prop where
  media : s'.media content.kind.type = readMedia desc content
  videoGroups : content.kind.type = .video → s'.videoSsrcGroups = content.streams.flatMap printedGroups
  audio : content.kind.type = .audio → s'.videoSsrcGroups = s.videoSsrcGroups ∧ s'.h264CodecId = s.h264CodecId
  other : s'.media content.kind.type.other = s.media content.kind.type.other
  groups : s'.groups = s.groups

/-- The lines of a legible content are read. -/
theorem exists_contentLines (hc : content.Proper) (ht : PlainTransport (desc.getTransportInfo content.mid))
    (hv : ValidTransport (desc.getTransportInfo content.mid)) (hl : content.Legible) (hs : Fresh content.kind.type s) :
    ∃ s', (desc.contentLines dtlsOn content).foldlM ParseState.parseLine s = .ok s' ∧ After desc content s s' := by
  let restLines := sideLines desc content ++ (buildSsrc content ++ buildCandidates content)
  let t := s.enter content.kind.type
  have hmedium : ∀ line ∈ restLines, found line "m=" = false := by
    intro line h
    rcases List.mem_append.mp h with h | h
    · exact (side_of_mem hc ht hv (List.mem_append_left _ h)).medium
    · refine unmarked_after hc hl (List.mem_append_right _ (List.mem_append_right _ h)) "m=" (by decide)
  have hentered : t.media content.kind.type = ⟨{ mid := content.kind.type.mid }, [], true⟩ := by
    rw [ParseState.media_enter, hs.media]
  have htransport : restLines.foldlM parseTransportInfo (t.media content.kind.type).td =
      .ok (readTransport content.kind.type (desc.getTransportInfo content.mid)) := by
    rw [hentered]
    exact foldlM_transport hc ht hv hl
  have hinfos : restLines.foldlM parseSsrcInfo (t.media content.kind.type).ssrcInfo = .ok (content.streams.flatMap sourceInfos) := by
    rw [hentered]
    exact foldlM_infos hc ht hv
  have hgroups : restLines.foldlM content.kind.type.parseGroups t.videoSsrcGroups =
      .ok (if content.kind.type = .audio then s.videoSsrcGroups else content.streams.flatMap printedGroups) := by
    rw [ParseState.videoSsrcGroups_enter]
    cases hk : content.kind.type with
    | audio => exact ExceptFolds.foldlM_skip fun _ _ => rfl
    | video =>
      rw [hs.groups hk]
      exact foldlM_groups hc ht hv
  have hids : ∃ ids, restLines.foldlM content.kind.type.parseCodecs (t.h264CodecId, t.rtxCodecId) = .ok ids ∧
      (content.kind.type = .audio → ids.1 = s.h264CodecId) := by
    rw [ParseState.h264CodecId_enter, ParseState.rtxCodecId_enter]
    cases hk : content.kind.type with
    | audio => exact ⟨(s.h264CodecId, s.rtxCodecId), ExceptFolds.foldlM_skip fun _ _ => rfl, fun _ => rfl⟩
    | video =>
      rw [hs.codec hk]
      obtain ⟨ids, hids⟩ := exists_foldlM_codecs (k := .video) hc ht hv s.rtxCodecId
      exact ⟨ids, hids, fun h => by cases h⟩
  obtain ⟨ids, hids, haudio⟩ := hids
  obtain ⟨s', hrun⟩ := ParseState.ok_of_parts ParseState.mediaType_enter hmedium htransport hinfos hgroups hids
  have hread := ParseState.read_of_ok ParseState.mediaType_enter hmedium hrun
  have htd := Except.ok.inj (htransport.symm.trans hread.transport)
  have hssrcInfo := Except.ok.inj (hinfos.symm.trans hread.infos)
  have hvideoGroups := Except.ok.inj (hgroups.symm.trans hread.ssrcGroups)
  have hcodecs := Except.ok.inj (hids.symm.trans hread.codecs)
  refine ⟨s', ?_, ?_, ?_, ?_, ?_, ?_⟩
  · rw [contentLines_eq, ExceptFolds.foldlM_cons_ok ParseState.parseLine_mediaLine]
    exact hrun
  · have hpushed := hread.pushed
    rw [hentered] at hpushed
    rw [readMedia, htd, hssrcInfo]
    exact congrArg (fun pushed => MediaState.mk _ _ pushed) hpushed
  · intro hk
    rw [hk] at hvideoGroups
    exact hvideoGroups.symm
  · intro hk
    rw [hk] at hvideoGroups
    refine ⟨hvideoGroups.symm, ?_⟩
    rw [← haudio hk, hcodecs]
  · rw [hread.other, ParseState.media_other_enter]
  · rw [hread.groups, ParseState.groups_enter]

end Contents

section Descriptions

def headerLines (desc : SessionDescription) : List Text :=
  ["v=0".toList, "o=XRTC/1.0 0 2 IN IP4 127.0.0.1".toList, "s=XrtcPublishSession ".toList, "t=0 0".toList] ++
    desc.bundleLines ++ ["a=msid-semantic: WMS  live/xrtc ".toList]

theorem lines_eq (desc : SessionDescription) (dtlsOn : Bool) :
    desc.lines dtlsOn = headerLines desc ++ desc.contents.flatMap (desc.contentLines dtlsOn) := rfl

theorem mem_headerLines (h : line ∈ headerLines desc) : found line "m=" = false ∧ '\n' ∉ line := by
  have hfixed : ∀ text ∈ ["v=0", "o=XRTC/1.0 0 2 IN IP4 127.0.0.1", "s=XrtcPublishSession ", "t=0 0",
      "a=msid-semantic: WMS  live/xrtc "], found text.toList "m=" = false ∧ '\n' ∉ text.toList := by
    decide +kernel
  simp only [headerLines, List.mem_append, List.mem_cons, List.not_mem_nil, or_false] at h
  rcases h with ((rfl | rfl | rfl | rfl) | h) | rfl
  · exact hfixed _ (by decide)
  · exact hfixed _ (by decide)
  · exact hfixed _ (by decide)
  · exact hfixed _ (by decide)
  · rw [SessionDescription.bundleLines] at h
    split at h
    · cases h
    · obtain rfl := List.mem_singleton.mp h
      generalize ((desc.getGroupByName "BUNDLE").flatMap ContentGroup.contentNames) = contentNames
      have hmids {c : Char} (hc : c ∉ " 01".toList) : c ∉ contentNames.flatMap fun contentName =>
          if contentName = "audio" then " 0".toList else if contentName = "video" then " 1".toList else [] := by
        intro hmem
        obtain ⟨contentName, -, hmem⟩ := List.mem_flatMap.mp hmem
        simp only [String.reduceToList, List.mem_cons, List.not_mem_nil, or_false, not_or] at hc
        split at hmem
        · simp [hc] at hmem
        · split at hmem
          · simp [hc] at hmem
          · cases hmem
      have hequals := hmids (c := '=') (by decide)
      have hnewline := hmids (c := '\n') (by decide)
      have hmarker : "a=group:BUNDLE".toList = 'a' :: '=' :: "group:BUNDLE".toList := by decide
      rw [hmarker, List.cons_append, List.cons_append]
      exact ⟨not_found_medium (by simpa using hequals), by simpa using hnewline⟩
  · exact hfixed _ (by decide)

/-- Nothing is read before the first medium. -/
theorem foldlM_headerLines (desc : SessionDescription) : (headerLines desc).foldlM ParseState.parseLine {} = .ok {} := by
  refine ExceptFolds.foldlM_skip fun line h => ?_
  have hoff : ∀ k : MediaType, ({} : ParseState).mediaType ≠ k.mid.toList := by
    intro k
    cases k <;> decide
  rw [ParseState.parseLine, ParseState.parseMedia_of_not_found (mem_headerLines h).1]
  exact @ParseState.parseAttribute_off {} line hoff

/-- The text is read line by line. -/
theorem setRemoteSdp_toString (h : ∀ line ∈ desc.lines dtlsOn, '\n' ∉ line) :
    setRemoteSdp (desc.toString dtlsOn) =
      (do let s ← (desc.lines dtlsOn).foldlM ParseState.parseLine {}; return s.remoteDesc) := by
  have htokens : tokenize (desc.toString dtlsOn) '\n' = (desc.lines dtlsOn).map (· ++ ['\r']) := tokenize_lines _ h
  have hne : (desc.lines dtlsOn).map (· ++ ['\r']) ≠ [] := by
    simp [SessionDescription.lines]
  have hfound : found (desc.toString dtlsOn) "\r\n" = true := by
    obtain ⟨line, lines, hlines⟩ : ∃ line lines, desc.lines dtlsOn = line :: lines := ⟨_, _, rfl⟩
    refine found_iff.mpr ⟨line, lines.flatMap fun line => line ++ "\r\n".toList, ?_⟩
    rw [SessionDescription.toString, hlines, List.flatMap_cons]
  have hdrop : ((desc.lines dtlsOn).map (· ++ ['\r'])).map List.dropLast = desc.lines dtlsOn := by
    rw [List.map_map]
    conv_rhs => rw [← List.map_id (desc.lines dtlsOn)]
    exact List.map_congr_left fun line _ => List.dropLast_concat
  rw [setRemoteSdp, htokens, if_neg hne, hfound]
  simp only [if_true]
  rw [hdrop]

/-- The contents so far were read, and no other medium. -/
structure Done (desc : SessionDescription) (contents : List MediaContentDescription) (s : ParseState) : Prop where
  groups : s.groups = []
  media : ∀ content ∈ contents, s.media content.kind.type = readMedia desc content
  videoGroups : ∀ content ∈ contents, content.kind.type = .video → s.videoSsrcGroups = content.streams.flatMap printedGroups
  fresh : ∀ k, (∀ content ∈ contents, content.kind.type ≠ k) → Fresh k s

theorem Done.nil (desc : SessionDescription) : Done desc [] {} := by
  refine ⟨rfl, by simp, by simp, fun k _ => ⟨?_, fun _ => rfl, fun _ => rfl⟩⟩
  cases k <;> rfl

/-- What one more content adds. -/
theorem Done.snoc {contents : List MediaContentDescription} (h : Done desc contents s) (hafter : After desc content s s')
    (hnew : ∀ earlier ∈ contents, earlier.kind.type ≠ content.kind.type) : Done desc (contents ++ [content]) s' := by
  have hother {k : MediaType} (hk : k ≠ content.kind.type) : s'.media k = s.media k := by
    obtain rfl := (content.kind.type.eq_or_eq_other k).resolve_left hk
    exact hafter.other
  have haudio {k : MediaType} (hk : k ≠ content.kind.type) (hvideo : k = .video) : content.kind.type = .audio := by
    subst hvideo
    cases hkind : content.kind.type with
    | audio => rfl
    | video => exact absurd hkind.symm hk
  refine ⟨hafter.groups.trans h.groups, ?_, ?_, ?_⟩
  · intro c hc
    rcases List.mem_append.mp hc with hc | hc
    · rw [hother (hnew c hc), h.media c hc]
    · obtain rfl := List.mem_singleton.mp hc
      exact hafter.media
  · intro c hc hvideo
    rcases List.mem_append.mp hc with hc | hc
    · rw [(hafter.audio (haudio (hnew c hc) hvideo)).1, h.videoGroups c hc hvideo]
    · obtain rfl := List.mem_singleton.mp hc
      exact hafter.videoGroups hvideo
  · intro k hk
    have hne : k ≠ content.kind.type := fun heq => hk content (List.mem_append_right _ List.mem_cons_self) heq.symm
    have hfresh := h.fresh k fun c hc => hk c (List.mem_append_left _ hc)
    refine ⟨(hother hne).trans hfresh.media, fun hvideo => ?_, fun hvideo => ?_⟩
    · rw [(hafter.audio (haudio hne hvideo)).1, hfresh.groups hvideo]
    · rw [(hafter.audio (haudio hne hvideo)).2, hfresh.codec hvideo]

/-- All contents are read. -/
theorem exists_lines (hp : desc.Proper) (hl : desc.Legible) :
    ∃ s, (desc.lines dtlsOn).foldlM ParseState.parseLine {} = .ok s ∧ Done desc desc.contents s := by
  have hall : ExceptFolds.Holds ParseState.parseLine (Done desc []) (desc.contents.flatMap (desc.contentLines dtlsOn))
      (Done desc desc.contents) := by
    refine ExceptFolds.Holds.flatMap fun pre content post heq s hs => ?_
    have hmem : content ∈ desc.contents := by
      rw [heq]
      exact List.mem_append_right _ List.mem_cons_self
    have hnew : ∀ earlier ∈ pre, earlier.kind.type ≠ content.kind.type := by
      intro earlier hearlier
      have hkinds := hp.kinds
      rw [heq, List.map_append, List.map_cons] at hkinds
      exact (List.nodup_append.mp hkinds).2.2 _ (List.mem_map_of_mem hearlier) _ List.mem_cons_self
    obtain ⟨s', hrun, hafter⟩ := exists_contentLines (hp.contents content hmem) (hp.transports content hmem)
      (hl.fingerprints content hmem) (hl.contents content hmem) (hs.fresh content.kind.type hnew)
    exact ⟨s', hrun, hs.snoc hafter hnew⟩
  obtain ⟨s, hrun, hdone⟩ := hall {} (Done.nil desc)
  refine ⟨s, ?_, hdone⟩
  rw [lines_eq, ExceptFolds.foldlM_append_eq (foldlM_headerLines desc)]
  exact hrun

end Descriptions

section Remote

/-- The tracks of a medium in the remote description. -/
def ParseState.tracks (s : ParseState) : MediaType → List StreamParams
  | .audio => createTrackFromSsrcInfo s.audio.ssrcInfo
  | .video => s.videoSsrcGroups.foldl addGroup (createTrackFromSsrcInfo s.video.ssrcInfo)

theorem getContent_remoteDesc (s : ParseState) (k : MediaType) :
    (s.remoteDesc.getContent k.mid).map (·.streams) = if (s.media k).existPushSource then some (s.tracks k) else none := by
  have haudio : "audio" ≠ "video" := by decide
  have hvideo : "video" ≠ "audio" := by decide
  cases k <;> cases ha : s.audio.existPushSource <;> cases hv : s.video.existPushSource <;>
    simp [ParseState.remoteDesc, SessionDescription.getContent, ParseState.media, MediaContentDescription.mid, MediaType.mid,
      MediaKind.type, ParseState.tracks, ha, hv, haudio, hvideo]

theorem tracksOf_remoteDesc (s : ParseState) (k : MediaType) :
    s.remoteDesc.tracksOf k = if (s.media k).existPushSource then some (k.readTracks (s.tracks k)) else none := by
  have hmap : s.remoteDesc.tracksOf k = ((s.remoteDesc.getContent k.mid).map (·.streams)).map k.readTracks := by
    rw [SessionDescription.tracksOf, Option.map_map]
    rfl
  rw [hmap, getContent_remoteDesc]
  split
  · rfl
  · rfl

/-- The transport of a medium is found if the other medium does not have its name. -/
theorem transportOf_remoteDesc (hself : (s.media k).td.mid = k.mid) (hother : (s.media k.other).td.mid ≠ k.mid) :
    s.remoteDesc.transportOf k.mid =
      ((s.media k).td.iceUfrag, (s.media k).td.icePwd, (s.media k).td.identityFingerprint) := by
  cases k with
  | audio =>
    have hmid : s.audio.td.mid = "audio" := hself
    simp [SessionDescription.transportOf, SessionDescription.getTransportInfo, ParseState.remoteDesc, MediaType.mid, hmid,
      ParseState.media]
  | video =>
    have hmid : s.video.td.mid = "video" := hself
    have hne : s.audio.td.mid ≠ "video" := hother
    simp [SessionDescription.transportOf, SessionDescription.getTransportInfo, ParseState.remoteDesc, MediaType.mid, hmid, hne,
      ParseState.media]

theorem mid_readTransport (k : MediaType) (transportInfo : Option TransportDescription) : (readTransport k transportInfo).mid = k.mid := by
  cases transportInfo <;> rfl

theorem mem_of_getContent (h : desc.getContent k.mid = some content) : content ∈ desc.contents ∧ content.kind.type = k := by
  have hmid : k.mid = content.mid := by
    simpa using List.find?_some h
  exact ⟨List.mem_of_find?_eq_some h, MediaType.mid_injective (congrArg String.toList hmid.symm)⟩

theorem kinds_of_getContent_none (h : desc.getContent k.mid = none) : ∀ content ∈ desc.contents, content.kind.type ≠ k := by
  rintro content hcontent rfl
  have hne := List.find?_eq_none.mp h content hcontent
  exact hne (by simp [MediaContentDescription.mid])

/-- The tracks of a content come back. -/
theorem tracks_of_done (hc : content.Proper) (hmem : content ∈ desc.contents) (h : Done desc desc.contents s) :
    content.kind.type.readTracks (s.tracks content.kind.type) = content.kind.type.readTracks content.streams := by
  have hmedia := h.media content hmem
  have htracks := createTrackFromSsrcInfo_eq hc.ids hc.sources
  have hvideo := h.videoGroups content hmem
  have hgroups := hc.groups
  cases hk : content.kind.type with
  | audio =>
    have hinfos : s.audio.ssrcInfo = content.streams.flatMap sourceInfos := by
      rw [hk] at hmedia
      exact congrArg MediaState.ssrcInfo hmedia
    rw [ParseState.tracks, hinfos, htracks, MediaType.readTracks, List.map_map]
    rfl
  | video =>
    have hinfos : s.video.ssrcInfo = content.streams.flatMap sourceInfos := by
      rw [hk] at hmedia
      exact congrArg MediaState.ssrcInfo hmedia
    have hprinted : content.streams.flatMap printedGroups = content.streams.flatMap (·.ssrcGroups) := by
      refine List.flatMap_congr fun track htrack => ?_
      refine List.filter_eq_self.mpr fun group hgroup => decide_eq_true ?_
      obtain ⟨ssrc, -, hhead⟩ := hgroups hk track htrack group hgroup
      rintro hnil
      rw [hnil] at hhead
      cases hhead
    rw [ParseState.tracks, hinfos, htracks, hvideo hk, hprinted]
    exact foldl_addGroup_eq hc.ssrcs (hgroups hk)

/-- No medium has the name of the other. -/
theorem mid_of_done (h : Done desc desc.contents s) (k : MediaType) : (s.media k).td.mid = "" ∨ (s.media k).td.mid = k.mid := by
  by_cases hk : ∃ content ∈ desc.contents, content.kind.type = k
  · obtain ⟨content, hmem, rfl⟩ := hk
    rw [h.media content hmem]
    exact .inr (mid_readTransport _ _)
  · rw [(h.fresh k fun content hmem heq => hk ⟨content, hmem, heq⟩).media]
    exact .inl rfl

theorem ne_mid_of_other {td : TransportDescription} (h : td.mid = "" ∨ td.mid = k.other.mid) : td.mid ≠ k.mid := by
  cases k <;> rcases h with h | h <;> rw [h] <;> decide

theorem transportOf_readTransport (desc : SessionDescription) (k : MediaType) :
    ((readTransport k (desc.getTransportInfo k.mid)).iceUfrag, (readTransport k (desc.getTransportInfo k.mid)).icePwd,
      (readTransport k (desc.getTransportInfo k.mid)).identityFingerprint) = desc.transportOf k.mid := by
  rw [SessionDescription.transportOf]
  cases desc.getTransportInfo k.mid <;> rfl

theorem newline_lines (hp : desc.Proper) (hv : ∀ content ∈ desc.contents, ValidTransport (desc.getTransportInfo content.mid)) :
    ∀ line ∈ desc.lines dtlsOn, '\n' ∉ line := by
  intro line hline
  rw [lines_eq] at hline
  rcases List.mem_append.mp hline with hline | hline
  · exact (mem_headerLines hline).2
  · obtain ⟨content, hcontent, hline⟩ := List.mem_flatMap.mp hline
    exact newline_contentLines (hp.contents content hcontent) (hp.transports content hcontent) (hv content hcontent) hline

/-- A legible description is read back. -/
theorem roundTrips_of_legible (hp : desc.Proper) (hl : desc.Legible) (dtlsOn : Bool) : desc.RoundTrips dtlsOn := by
  have hlines : ∃ s, (desc.lines dtlsOn).foldlM ParseState.parseLine {} = .ok s ∧ Done desc desc.contents s := exists_lines hp hl
  obtain ⟨s, hrun, hdone⟩ := hlines
  refine ⟨s.remoteDesc, ?_, ?_, ?_, ?_⟩
  · rw [setRemoteSdp_toString (newline_lines hp hl.fingerprints), hrun]
    rfl
  · intro k
    rw [tracksOf_remoteDesc]
    cases hget : desc.getContent k.mid with
    | none =>
      rw [(hdone.fresh k (kinds_of_getContent_none hget)).media, SessionDescription.tracksOf, hget]
      rfl
    | some content =>
      obtain ⟨hmem, rfl⟩ := mem_of_getContent hget
      rw [hdone.media content hmem, SessionDescription.tracksOf, hget]
      exact congrArg some (tracks_of_done (hp.contents content hmem) hmem hdone)
  · intro content hmem
    have hmedia := hdone.media content hmem
    have hself : (s.media content.kind.type).td.mid = content.kind.type.mid := by
      rw [hmedia]
      exact mid_readTransport _ _
    have hother : (s.media content.kind.type.other).td.mid ≠ content.kind.type.mid :=
      ne_mid_of_other (mid_of_done hdone content.kind.type.other)
    rw [MediaContentDescription.mid, transportOf_remoteDesc hself hother, hmedia]
    exact transportOf_readTransport desc content.kind.type
  · rw [hl.bundle]
    simp [ParseState.remoteDesc, SessionDescription.getGroupByName, hdone.groups]

end Remote

end Sdp
end XrtcServer
