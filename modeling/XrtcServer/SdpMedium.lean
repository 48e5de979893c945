import XrtcServer.ExceptFolds
import XrtcServer.SdpLines

/-! Reading the lines of one medium. Its transport, its sources, its groups and its codecs are read
from them one beside the other. -/
namespace XrtcServer
namespace Sdp
open XrtcServer.Stream

namespace MediaType

def other : MediaType → MediaType
  | audio => video
  | video => audio

theorem eq_or_eq_other (k k' : MediaType) : k' = k ∨ k' = k.other := by
  cases k <;> cases k' <;> simp [other]

theorem mid_injective {k k' : MediaType} (h : k.mid.toList = k'.mid.toList) : k = k' := by
  cases k <;> cases k' <;> revert h <;> decide

/-- Only the groups of the video are read. -/
def parseGroups (k : MediaType) (groups : List SsrcGroup) (line : Text) : Except Failure (List SsrcGroup) :=
  match k with
  | audio => .ok groups
  | video => parseSsrcGroupInfo groups line

/-- The two codecs of the video. -/
def parseCodecs (k : MediaType) (ids : ℤ × ℤ) (line : Text) : Except Failure (ℤ × ℤ) :=
  match k with
  | audio => .ok ids
  | video => do
    let h264CodecId ← parseFmtpInfo ids.1 line
    let rtxCodecId ← if h264CodecId ≠ 0 then parseRtpmapInfo ids.2 line else .ok ids.2
    return (h264CodecId, rtxCodecId)

end MediaType

section Skipped
variable {line : Text} {infos : List SsrcInfo} {groups : List SsrcGroup} {td : TransportDescription} {k : MediaType} {ids : ℤ × ℤ}

theorem parseTransportInfo_of_not_found (h : ∀ marker ∈ ["a=ice-ufrag", "a=ice-pwd", "a=fingerprint"], found line marker = false) :
    parseTransportInfo td line = .ok td := by
  have hufrag := h "a=ice-ufrag" (by decide)
  have hpwd := h "a=ice-pwd" (by decide)
  have hfingerprint := h "a=fingerprint" (by decide)
  simp [parseTransportInfo, hufrag, hpwd, hfingerprint]

theorem parseTransportInfo_unmarked (h : Unmarked line) : parseTransportInfo td line = .ok td :=
  parseTransportInfo_of_not_found fun marker hmarker => h marker (List.mem_cons_of_mem _ hmarker)

theorem parseSsrcInfo_of_not_found (h : found line "a=ssrc:" = false) : parseSsrcInfo infos line = .ok infos := by
  simp [parseSsrcInfo, h]

theorem parseSsrcGroupInfo_of_not_found (h : found line "a=ssrc-group:" = false) : parseSsrcGroupInfo groups line = .ok groups := by
  simp [parseSsrcGroupInfo, h]

theorem parseGroups_of_not_found (h : found line "a=ssrc-group:" = false) : k.parseGroups groups line = .ok groups := by
  cases k with
  | audio => rfl
  | video => exact parseSsrcGroupInfo_of_not_found h

theorem parseCodecs_codecless (h : Codecless line) : k.parseCodecs ids line = .ok ids := by
  cases k with
  | audio => rfl
  | video =>
    obtain ⟨hfmtp, hrtpmap⟩ := parseCodecInfo_codecless h ids.1
    rw [MediaType.parseCodecs, hfmtp, (parseCodecInfo_codecless h ids.2).2]
    obtain ⟨h264CodecId, rtxCodecId⟩ := ids
    by_cases hzero : h264CodecId = 0
    · simp [hzero, bind, Except.bind, pure, Except.pure]
    · simp [hzero, bind, Except.bind, pure, Except.pure]

end Skipped

namespace ParseState
variable {s s' : ParseState} {k : MediaType} {line : Text} {lines : List Text}

def media (s : ParseState) : MediaType → MediaState
  | .audio => s.audio
  | .video => s.video

/-- The state after what was read for a medium. -/
def update (s : ParseState) (k : MediaType) (td : TransportDescription) (ssrcInfo : List SsrcInfo) (groups : List SsrcGroup)
    (ids : ℤ × ℤ) : ParseState :=
  match k with
  | .audio =>
    { s with audio := { s.audio with td, ssrcInfo }, videoSsrcGroups := groups, h264CodecId := ids.1, rtxCodecId := ids.2 }
  | .video =>
    { s with video := { s.video with td, ssrcInfo }, videoSsrcGroups := groups, h264CodecId := ids.1, rtxCodecId := ids.2 }

theorem parseAttribute_eq (h : s.mediaType = k.mid.toList) :
    s.parseAttribute line = (do
      let td ← parseTransportInfo (s.media k).td line
      let ssrcInfo ← parseSsrcInfo (s.media k).ssrcInfo line
      let groups ← k.parseGroups s.videoSsrcGroups line
      let ids ← k.parseCodecs (s.h264CodecId, s.rtxCodecId) line
      return s.update k td ssrcInfo groups ids) := by
  cases k with
  | audio =>
    have haudio : s.mediaType = "audio".toList := h
    rw [parseAttribute, if_pos haudio, parseSource, media]
    cases parseTransportInfo s.audio.td line with
    | error f => rfl
    | ok td =>
      cases parseSsrcInfo s.audio.ssrcInfo line with
      | error f => rfl
      | ok ssrcInfo => rfl
  | video =>
    have hvideo : s.mediaType = "video".toList := h
    have hnot : s.mediaType ≠ "audio".toList := by
      rw [hvideo]
      decide
    rw [parseAttribute, if_neg hnot, if_pos hvideo, parseSource, media, MediaType.parseGroups, MediaType.parseCodecs]
    cases parseTransportInfo s.video.td line with
    | error f => rfl
    | ok td =>
      cases parseSsrcInfo s.video.ssrcInfo line with
      | error f => rfl
      | ok ssrcInfo =>
        cases parseSsrcGroupInfo s.videoSsrcGroups line with
        | error f => rfl
        | ok groups =>
          cases parseFmtpInfo s.h264CodecId line with
          | error f => rfl
          | ok h264CodecId =>
            by_cases hzero : h264CodecId = 0
            · simp [hzero, bind, Except.bind, pure, Except.pure, update]
            · cases parseRtpmapInfo s.rtxCodecId line with
              | error f => simp [hzero, bind, Except.bind, pure, Except.pure]
              | ok rtxCodecId => simp [hzero, bind, Except.bind, pure, Except.pure, update]

section Update
variable {td : TransportDescription} {ssrcInfo : List SsrcInfo} {groups : List SsrcGroup} {ids : ℤ × ℤ}

@[simp] theorem mediaType_update : (s.update k td ssrcInfo groups ids).mediaType = s.mediaType := by cases k <;> rfl

@[simp] theorem groups_update : (s.update k td ssrcInfo groups ids).groups = s.groups := by cases k <;> rfl

@[simp] theorem videoSsrcGroups_update : (s.update k td ssrcInfo groups ids).videoSsrcGroups = groups := by cases k <;> rfl

@[simp] theorem h264CodecId_update : (s.update k td ssrcInfo groups ids).h264CodecId = ids.1 := by cases k <;> rfl

@[simp] theorem rtxCodecId_update : (s.update k td ssrcInfo groups ids).rtxCodecId = ids.2 := by cases k <;> rfl

@[simp] theorem media_update : (s.update k td ssrcInfo groups ids).media k = { s.media k with td, ssrcInfo } := by cases k <;> rfl

@[simp] theorem media_other_update : (s.update k td ssrcInfo groups ids).media k.other = s.media k.other := by cases k <;> rfl

end Update

section Lines

theorem not_found_bundle (h : found line "m=" = false) : found line "m=group:BUNDLE" = false := by
  rw [found_eq_false_iff] at h ⊢
  exact fun hbundle => h (List.IsInfix.trans ⟨[], "group:BUNDLE".toList, rfl⟩ hbundle)

/-- A line of a medium. -/
theorem parseLine_eq (h : s.mediaType = k.mid.toList) (hline : found line "m=" = false) :
    s.parseLine line = (do
      let td ← parseTransportInfo (s.media k).td line
      let ssrcInfo ← parseSsrcInfo (s.media k).ssrcInfo line
      let groups ← k.parseGroups s.videoSsrcGroups line
      let ids ← k.parseCodecs (s.h264CodecId, s.rtxCodecId) line
      return s.update k td ssrcInfo groups ids) := by
  have hmedia : s.parseMedia line = .ok s := by
    simp [parseMedia, hline, not_found_bundle hline]
  rw [parseLine, hmedia]
  exact parseAttribute_eq h

/-- What is read from the lines of a medium. -/
structure Read (k : MediaType) (s : ParseState) (lines : List Text) (s' : ParseState) : Prop where
  transport : lines.foldlM parseTransportInfo (s.media k).td = .ok (s'.media k).td
  infos : lines.foldlM parseSsrcInfo (s.media k).ssrcInfo = .ok (s'.media k).ssrcInfo
  ssrcGroups : lines.foldlM k.parseGroups s.videoSsrcGroups = .ok s'.videoSsrcGroups
  codecs : lines.foldlM k.parseCodecs (s.h264CodecId, s.rtxCodecId) = .ok (s'.h264CodecId, s'.rtxCodecId)
  mediaType : s'.mediaType = s.mediaType
  pushed : (s'.media k).existPushSource = (s.media k).existPushSource
  other : s'.media k.other = s.media k.other
  groups : s'.groups = s.groups

theorem Read.nil : Read k s [] s := ⟨rfl, rfl, rfl, rfl, rfl, rfl, rfl, rfl⟩

theorem parseLine_ok (h : s.mediaType = k.mid.toList) (hline : found line "m=" = false) {td : TransportDescription}
    {ssrcInfo : List SsrcInfo} {groups : List SsrcGroup} {ids : ℤ × ℤ} (htd : parseTransportInfo (s.media k).td line = .ok td)
    (hinfos : parseSsrcInfo (s.media k).ssrcInfo line = .ok ssrcInfo) (hgroups : k.parseGroups s.videoSsrcGroups line = .ok groups)
    (hids : k.parseCodecs (s.h264CodecId, s.rtxCodecId) line = .ok ids) :
    s.parseLine line = .ok (s.update k td ssrcInfo groups ids) := by
  rw [parseLine_eq h hline, htd, hinfos, hgroups, hids]
  rfl

theorem exists_of_parseLine_ok (h : s.mediaType = k.mid.toList) (hline : found line "m=" = false) (hok : s.parseLine line = .ok s') :
    ∃ td ssrcInfo groups ids, parseTransportInfo (s.media k).td line = .ok td ∧
      parseSsrcInfo (s.media k).ssrcInfo line = .ok ssrcInfo ∧ k.parseGroups s.videoSsrcGroups line = .ok groups ∧
      k.parseCodecs (s.h264CodecId, s.rtxCodecId) line = .ok ids ∧ s' = s.update k td ssrcInfo groups ids := by
  rw [parseLine_eq h hline] at hok
  obtain ⟨td, htd, hok⟩ := ExceptFolds.bind_eq_ok hok
  obtain ⟨ssrcInfo, hinfos, hok⟩ := ExceptFolds.bind_eq_ok hok
  obtain ⟨groups, hgroups, hok⟩ := ExceptFolds.bind_eq_ok hok
  obtain ⟨ids, hids, hok⟩ := ExceptFolds.bind_eq_ok hok
  exact ⟨td, ssrcInfo, groups, ids, htd, hinfos, hgroups, hids, (Except.ok.inj hok).symm⟩

/-- A run over the lines of a medium is one run for each of the parts. -/
theorem read_of_ok (h : s.mediaType = k.mid.toList) (hlines : ∀ line ∈ lines, found line "m=" = false)
    (hok : lines.foldlM parseLine s = .ok s') : Read k s lines s' := by
  induction lines generalizing s with
  | nil =>
    obtain rfl := Except.ok.inj hok
    exact .nil
  | cons line lines ih =>
    obtain ⟨t, hfirst, hrest⟩ := ExceptFolds.foldlM_cons_eq_ok hok
    obtain ⟨td, ssrcInfo, groups, ids, htd, hinfos, hgroups, hids, rfl⟩ :=
      exists_of_parseLine_ok h (hlines line List.mem_cons_self) hfirst
    have hread := ih (by rw [mediaType_update]; exact h) (fun l hl => hlines l (List.mem_cons_of_mem line hl)) hrest
    refine ⟨?_, ?_, ?_, ?_, ?_, ?_, ?_, ?_⟩
    · rw [ExceptFolds.foldlM_cons_ok htd]
      simpa using hread.transport
    · rw [ExceptFolds.foldlM_cons_ok hinfos]
      simpa using hread.infos
    · rw [ExceptFolds.foldlM_cons_ok hgroups]
      simpa using hread.ssrcGroups
    · rw [ExceptFolds.foldlM_cons_ok hids]
      simpa using hread.codecs
    · simpa using hread.mediaType
    · simpa using hread.pushed
    · simpa using hread.other
    · simpa using hread.groups

/-- If no part fails the lines are read. -/
theorem ok_of_parts (h : s.mediaType = k.mid.toList) (hlines : ∀ line ∈ lines, found line "m=" = false)
    {td : TransportDescription} {ssrcInfo : List SsrcInfo} {groups : List SsrcGroup} {ids : ℤ × ℤ}
    (htd : lines.foldlM parseTransportInfo (s.media k).td = .ok td)
    (hinfos : lines.foldlM parseSsrcInfo (s.media k).ssrcInfo = .ok ssrcInfo)
    (hgroups : lines.foldlM k.parseGroups s.videoSsrcGroups = .ok groups)
    (hids : lines.foldlM k.parseCodecs (s.h264CodecId, s.rtxCodecId) = .ok ids) : ∃ s', lines.foldlM parseLine s = .ok s' := by
  induction lines generalizing s with
  | nil => exact ⟨s, rfl⟩
  | cons line lines ih =>
    obtain ⟨td₁, htd₁, htd⟩ := ExceptFolds.foldlM_cons_eq_ok htd
    obtain ⟨infos₁, hinfos₁, hinfos⟩ := ExceptFolds.foldlM_cons_eq_ok hinfos
    obtain ⟨groups₁, hgroups₁, hgroups⟩ := ExceptFolds.foldlM_cons_eq_ok hgroups
    obtain ⟨ids₁, hids₁, hids⟩ := ExceptFolds.foldlM_cons_eq_ok hids
    rw [ExceptFolds.foldlM_cons_ok (parseLine_ok h (hlines line List.mem_cons_self) htd₁ hinfos₁ hgroups₁ hids₁)]
    refine ih ?_ (fun l hl => hlines l (List.mem_cons_of_mem line hl)) ?_ ?_ ?_ ?_
    · rw [mediaType_update]
      exact h
    · simpa using htd
    · simpa using hinfos
    · simpa using hgroups
    · simpa using hids

end Lines

section Media

/-- The state after the first line of a medium. -/
def enter (s : ParseState) (k : MediaType) : ParseState :=
  match k with
  | .audio => { s with mediaType := k.mid.toList, audio := { s.audio with td := { s.audio.td with mid := k.mid }, existPushSource := true } }
  | .video => { s with mediaType := k.mid.toList, video := { s.video with td := { s.video.td with mid := k.mid }, existPushSource := true } }

@[simp] theorem mediaType_enter : (s.enter k).mediaType = k.mid.toList := by cases k <;> rfl

@[simp] theorem groups_enter : (s.enter k).groups = s.groups := by cases k <;> rfl

@[simp] theorem videoSsrcGroups_enter : (s.enter k).videoSsrcGroups = s.videoSsrcGroups := by cases k <;> rfl

@[simp] theorem h264CodecId_enter : (s.enter k).h264CodecId = s.h264CodecId := by cases k <;> rfl

@[simp] theorem rtxCodecId_enter : (s.enter k).rtxCodecId = s.rtxCodecId := by cases k <;> rfl

@[simp] theorem media_enter :
    (s.enter k).media k = { s.media k with td := { (s.media k).td with mid := k.mid }, existPushSource := true } := by cases k <;> rfl

@[simp] theorem media_other_enter : (s.enter k).media k.other = s.media k.other := by cases k <;> rfl

variable {content : MediaContentDescription} {dtlsOn : Bool}

/-- What follows the name in the first line of a medium. -/
theorem mediaLine_eq (content : MediaContentDescription) (dtlsOn : Bool) : ∃ fields, mediaLine content dtlsOn =
    ('m' :: '=' :: content.mid.toList) ++ ' ' :: (['9'] ++ ' ' :: fields) ∧ '=' ∉ fields ∧ ':' ∉ fields ∧ '\n' ∉ fields ∧
      found fields "rtx/90000" = false := by
  obtain ⟨codec, codecs, hcodecs⟩ : ∃ codec codecs, content.codecs = codec :: codecs := by
    rw [MediaContentDescription.codecs]
    cases content.kind with
    | audio => exact ⟨_, _, rfl⟩
    | video h264CodecId rtxCodecId => exact ⟨_, _, rfl⟩
  have hnumbers (c : Char) (hc : c ≠ ' ') (hminus : c ≠ '-') (hdigit : ¬ c.isDigit) :
      c ∉ decimal codec.id ++ codecs.flatMap fun codec => ' ' :: decimal codec.id := by
    intro hmem
    rcases List.mem_append.mp hmem with hmem | hmem
    · exact not_mem_decimal hminus hdigit hmem
    · obtain ⟨next, -, hnext⟩ := List.mem_flatMap.mp hmem
      rcases List.mem_cons.mp hnext with hnext | hnext
      · exact hc hnext
      · exact not_mem_decimal hminus hdigit hnext
  refine ⟨(if dtlsOn then "UDP/TLS/RTP/SAVPF" else "RTP/SAVPF").toList ++ ' ' ::
    (decimal codec.id ++ codecs.flatMap fun codec => ' ' :: decimal codec.id), ?_, ?_, ?_, ?_, ?_⟩
  · rw [mediaLine, hcodecs, List.flatMap_cons]
    generalize decimal codec.id = number
    simp
  · have hrest := hnumbers '=' (by decide) (by decide) (by decide)
    cases dtlsOn <;> simpa using hrest
  · have hrest := hnumbers ':' (by decide) (by decide) (by decide)
    cases dtlsOn <;> simpa using hrest
  · have hrest := hnumbers '\n' (by decide) (by decide) (by decide)
    cases dtlsOn <;> simpa using hrest
  · have hrest := hnumbers '/' (by decide) (by decide) (by decide)
    rw [found_append_cons (by decide)]
    refine ⟨?_, found_of_not_mem (by decide : '/' ∈ "rtx/90000".toList) hrest⟩
    cases dtlsOn <;> decide

theorem not_mem_mid (k : MediaType) : '=' ∉ k.mid.toList ∧ ':' ∉ k.mid.toList ∧ ' ' ∉ k.mid.toList ∧ '\n' ∉ k.mid.toList := by
  cases k <;> decide

theorem parseMedia_mediaLine : s.parseMedia (mediaLine content dtlsOn) = .ok (s.enter content.kind.type) := by
  obtain ⟨fields, hline, -, hcolon, -⟩ := mediaLine_eq content dtlsOn
  obtain ⟨field, rest, hfields⟩ := List.exists_cons_of_ne_nil (split_ne_nil fields ' ')
  have hmidcolon : ':' ∉ content.mid.toList := (not_mem_mid content.kind.type).2.1
  have hmidblank : ' ' ∉ content.mid.toList := (not_mem_mid content.kind.type).2.2.1
  have hblank : ' ' ∉ 'm' :: '=' :: content.mid.toList := by
    simpa using hmidblank
  have hbundle : found (mediaLine content dtlsOn) "m=group:BUNDLE" = false := by
    refine found_of_not_mem (by decide : ':' ∈ "m=group:BUNDLE".toList) ?_
    rw [hline]
    simpa using ⟨hmidcolon, hcolon⟩
  have hmedium : found (mediaLine content dtlsOn) "m=" = true := by
    rw [hline]
    exact found_of_start ⟨_, rfl⟩
  have hsplit : split (mediaLine content dtlsOn) ' ' = ('m' :: '=' :: content.mid.toList) :: ['9'] :: field :: rest := by
    rw [hline, split_append_cons hblank, split_append_cons (by decide), hfields]
  have hsubstr : substr ('m' :: '=' :: content.mid.toList) 2 = .ok content.kind.type.mid.toList := rfl
  rw [parseMedia, if_neg (by rw [hbundle]; decide), if_pos hmedium, hsplit]
  show (do
    let mediaType ← substr ('m' :: '=' :: content.mid.toList) 2
    _) = _
  rw [hsubstr]
  cases content.kind.type with
  | audio => rfl
  | video => rfl

theorem update_self (s : ParseState) (k : MediaType) :
    s.update k (s.media k).td (s.media k).ssrcInfo s.videoSsrcGroups (s.h264CodecId, s.rtxCodecId) = s := by
  cases k <;> rfl

/-- The first line of a medium says nothing else. -/
theorem parseLine_mediaLine : s.parseLine (mediaLine content dtlsOn) = .ok (s.enter content.kind.type) := by
  obtain ⟨fields, hline, heq, hcolon, -, hrtx⟩ := mediaLine_eq content dtlsOn
  obtain ⟨hmideq, hmidcolon, hmidblank, -⟩ := not_mem_mid content.kind.type
  have hafter : '=' ∉ content.mid.toList ++ ' ' :: (['9'] ++ ' ' :: fields) := by
    simpa using ⟨hmideq, heq⟩
  have hnocolon : ':' ∉ mediaLine content dtlsOn := by
    rw [hline]
    simpa using ⟨hmidcolon, hcolon⟩
  have hmarkers : ∀ marker ∈ ["a=ice-ufrag", "a=ice-pwd", "a=fingerprint", "level-asymmetry-allowed=1"],
      found (mediaLine content dtlsOn) marker = false := by
    intro marker hmarker
    rw [hline]
    have hat {u v : Text} (hp : marker.toList = u ++ '=' :: v) (hu : ¬ u <:+ ['m']) :
        found (['m'] ++ '=' :: (content.mid.toList ++ ' ' :: (['9'] ++ ' ' :: fields))) marker = false :=
      not_found_of_aligned hp (by decide) hafter fun h => hu h.1
    simp only [List.mem_cons, List.not_mem_nil, or_false] at hmarker
    rcases hmarker with rfl | rfl | rfl | rfl
    · exact hat (u := ['a']) rfl (by decide)
    · exact hat (u := ['a']) rfl (by decide)
    · exact hat (u := ['a']) rfl (by decide)
    · exact hat (u := "level-asymmetry-allowed".toList) rfl (by decide)
  have hcodecless : Codecless (mediaLine content dtlsOn) := by
    refine ⟨hmarkers _ (by decide), ?_⟩
    rw [hline, found_append_cons (by decide), found_append_cons (by decide)]
    refine ⟨found_of_not_mem (by decide : '/' ∈ "rtx/90000".toList) ?_, by decide, hrtx⟩
    cases hk : content.kind.type <;> simp [MediaContentDescription.mid, hk, MediaType.mid]
  have htd (td : TransportDescription) : parseTransportInfo td (mediaLine content dtlsOn) = .ok td :=
    parseTransportInfo_of_not_found fun marker hmarker => hmarkers marker (List.mem_append_left ["level-asymmetry-allowed=1"] hmarker)
  rw [parseLine, parseMedia_mediaLine]
  show (s.enter content.kind.type).parseAttribute (mediaLine content dtlsOn) = _
  rw [parseAttribute_eq mediaType_enter, htd, parseSsrcInfo_of_not_found (found_of_not_mem (by decide : ':' ∈ "a=ssrc:".toList) hnocolon),
    parseGroups_of_not_found (found_of_not_mem (by decide : ':' ∈ "a=ssrc-group:".toList) hnocolon), parseCodecs_codecless hcodecless]
  exact congrArg Except.ok (update_self _ _)

end Media

section Aside

theorem split_append_of_not_mem {x : Text} {c : Char} (h : c ∉ x) (y : Text) :
    ∃ field fields, split (x ++ y) c = (x ++ field) :: fields := by
  by_cases hy : c ∈ y
  · obtain ⟨field, rest, rfl, hfield⟩ := List.eq_append_cons_of_mem hy
    refine ⟨field, split rest c, ?_⟩
    rw [← List.append_assoc, split_append_cons (by simpa using ⟨h, hfield⟩)]
  · exact ⟨y, [], split_of_not_mem (by simpa using ⟨h, hy⟩)⟩

/-- A line that starts no medium. -/
def Aside (line : Text) : Prop := found line "m=" = false ∨ "a=ssrc".toList <+: line

theorem parseMedia_of_not_found (h : found line "m=" = false) : s.parseMedia line = .ok s := by
  simp [parseMedia, h, not_found_bundle h]

/-- Where a line that starts no medium has the pattern of one, no medium is read after it. -/
theorem parseMedia_misread (h : "a=ssrc".toList <+: line) (hbundle : found line "m=group:BUNDLE" = false)
    (hmedium : found line "m=" = true) (hok : s.parseMedia line = .ok s') :
    (∀ k, s'.media k = s.media k) ∧ ∀ k : MediaType, s'.mediaType ≠ k.mid.toList := by
  obtain ⟨rest, rfl⟩ := h
  obtain ⟨field, fields, hsplit⟩ := split_append_of_not_mem (by decide : ' ' ∉ "a=ssrc".toList) rest
  have hsubstr : substr ("a=ssrc".toList ++ field) 2 = .ok ("ssrc".toList ++ field) := rfl
  have hne (k : MediaType) : "ssrc".toList ++ field ≠ k.mid.toList := by
    cases k <;> simp [MediaType.mid]
  rw [parseMedia, if_neg (by rw [hbundle]; decide), if_pos hmedium, hsplit] at hok
  split at hok
  · rename_i hitems
    obtain ⟨rfl, -⟩ := List.cons.inj hitems
    rw [hsubstr] at hok
    obtain ⟨mediaType, hmediaType, hok⟩ := ExceptFolds.bind_eq_ok hok
    obtain rfl := Except.ok.inj hmediaType
    have haudio : "ssrc".toList ++ field ≠ "audio".toList := hne .audio
    have hvideo : "ssrc".toList ++ field ≠ "video".toList := hne .video
    rw [if_neg haudio, if_neg hvideo] at hok
    obtain rfl := Except.ok.inj hok
    exact ⟨fun k => by cases k <;> rfl, hne⟩
  · cases hok

theorem parseMedia_aside (h : Aside line) (hok : s.parseMedia line = .ok s') :
    (∀ k, s'.media k = s.media k) ∧ (s'.mediaType = s.mediaType ∨ ∀ k : MediaType, s'.mediaType ≠ k.mid.toList) := by
  by_cases hmedium : found line "m=" = true
  · have hstart : "a=ssrc".toList <+: line := h.resolve_left (by rw [hmedium]; decide)
    by_cases hbundle : found line "m=group:BUNDLE" = true
    · rw [parseMedia, if_pos hbundle] at hok
      split at hok
      · obtain rfl := Except.ok.inj hok
        exact ⟨fun k => by cases k <;> rfl, .inl rfl⟩
      · obtain rfl := Except.ok.inj hok
        exact ⟨fun k => rfl, .inl rfl⟩
    · obtain ⟨hmedia, hoff⟩ := parseMedia_misread hstart (Bool.eq_false_iff.mpr hbundle) hmedium hok
      exact ⟨hmedia, .inr hoff⟩
  · rw [parseMedia_of_not_found (Bool.eq_false_iff.mpr hmedium)] at hok
    obtain rfl := Except.ok.inj hok
    exact ⟨fun k => rfl, .inl rfl⟩

theorem parseAttribute_off (h : ∀ k : MediaType, s.mediaType ≠ k.mid.toList) : s.parseAttribute line = .ok s := by
  have haudio : s.mediaType ≠ "audio".toList := h .audio
  have hvideo : s.mediaType ≠ "video".toList := h .video
  rw [parseAttribute, if_neg haudio, if_neg hvideo]

/-- What one line may do. -/
theorem parseLine_cases (hok : s.parseLine line = .ok s') : ∃ t, s.parseMedia line = .ok t ∧
    ((∃ k : MediaType, t.mediaType = k.mid.toList ∧ ∃ td ssrcInfo groups ids, parseTransportInfo (t.media k).td line = .ok td ∧
      parseSsrcInfo (t.media k).ssrcInfo line = .ok ssrcInfo ∧ s' = t.update k td ssrcInfo groups ids) ∨
    (∀ k : MediaType, t.mediaType ≠ k.mid.toList) ∧ s' = t) := by
  obtain ⟨t, hmedia, hattr⟩ := ExceptFolds.bind_eq_ok hok
  refine ⟨t, hmedia, ?_⟩
  by_cases hmedium : ∃ k : MediaType, t.mediaType = k.mid.toList
  · obtain ⟨k, hk⟩ := hmedium
    rw [parseAttribute_eq hk] at hattr
    obtain ⟨td, htd, hattr⟩ := ExceptFolds.bind_eq_ok hattr
    obtain ⟨ssrcInfo, hinfos, hattr⟩ := ExceptFolds.bind_eq_ok hattr
    obtain ⟨groups, -, hattr⟩ := ExceptFolds.bind_eq_ok hattr
    obtain ⟨ids, -, hattr⟩ := ExceptFolds.bind_eq_ok hattr
    exact .inl ⟨k, hk, td, ssrcInfo, groups, ids, htd, hinfos, (Except.ok.inj hattr).symm⟩
  · have hoff : ∀ k : MediaType, t.mediaType ≠ k.mid.toList := fun k hk => hmedium ⟨k, hk⟩
    rw [parseAttribute_off hoff] at hattr
    exact .inr ⟨hoff, (Except.ok.inj hattr).symm⟩

/-- The lines of one medium leave the other. -/
theorem media_update_of_ne {k' : MediaType} (h : k' ≠ k) {td : TransportDescription} {ssrcInfo : List SsrcInfo}
    {groups : List SsrcGroup} {ids : ℤ × ℤ} : (s.update k' td ssrcInfo groups ids).media k = s.media k := by
  obtain rfl := (k'.eq_or_eq_other k).resolve_left h.symm
  exact media_other_update

/-- What follows the lines of another medium leaves the medium. -/
theorem parseLine_aside (h : Aside line) (hk : s.mediaType ≠ k.mid.toList) (hok : s.parseLine line = .ok s') :
    s'.mediaType ≠ k.mid.toList ∧ s'.media k = s.media k := by
  obtain ⟨t, hmedia, hcases⟩ := parseLine_cases hok
  obtain ⟨hsame, htype⟩ := parseMedia_aside h hmedia
  have ht : t.mediaType ≠ k.mid.toList := by
    rcases htype with htype | htype
    · rwa [htype]
    · exact htype k
  rcases hcases with ⟨k', hk', td, ssrcInfo, groups, ids, -, -, rfl⟩ | ⟨-, rfl⟩
  · have hne : k' ≠ k := by
      rintro rfl
      exact ht hk'
    exact ⟨by rwa [mediaType_update], (media_update_of_ne hne).trans (hsame k)⟩
  · exact ⟨ht, hsame k⟩

/-- A line only marks a medium as pushed before the rest is read. -/
theorem media_of_parseMedia (hok : s.parseMedia line = .ok s') (k : MediaType) :
    s'.media k = s.media k ∨ s'.media k = { s.media k with td := { (s.media k).td with mid := k.mid }, existPushSource := true } := by
  rw [parseMedia] at hok
  split at hok
  · split at hok
    · obtain rfl := Except.ok.inj hok
      exact .inl (by cases k <;> rfl)
    · obtain rfl := Except.ok.inj hok
      exact .inl rfl
  · split at hok
    · split at hok
      · obtain ⟨mediaType, -, hok⟩ := ExceptFolds.bind_eq_ok hok
        split at hok
        · obtain rfl := Except.ok.inj hok
          cases k
          · exact .inr rfl
          · exact .inl rfl
        · split at hok
          · obtain rfl := Except.ok.inj hok
            cases k
            · exact .inl rfl
            · exact .inr rfl
          · obtain rfl := Except.ok.inj hok
            exact .inl (by cases k <;> rfl)
      · cases hok
    · obtain rfl := Except.ok.inj hok
      exact .inl rfl

theorem groups_of_parseMedia (h : found line "m=group:BUNDLE" = false) (hok : s.parseMedia line = .ok s') : s'.groups = s.groups := by
  rw [parseMedia, if_neg (by rw [h]; decide)] at hok
  split at hok
  · split at hok
    · obtain ⟨mediaType, -, hok⟩ := ExceptFolds.bind_eq_ok hok
      split at hok
      · obtain rfl := Except.ok.inj hok
        rfl
      · split at hok
        · obtain rfl := Except.ok.inj hok
          rfl
        · obtain rfl := Except.ok.inj hok
          rfl
    · cases hok
  · obtain rfl := Except.ok.inj hok
    rfl

theorem groups_of_parseLine (h : found line "m=group:BUNDLE" = false) (hok : s.parseLine line = .ok s') : s'.groups = s.groups := by
  obtain ⟨t, hmedia, hcases⟩ := parseLine_cases hok
  have hgroups := groups_of_parseMedia h hmedia
  rcases hcases with ⟨k, -, td, ssrcInfo, groups, ids, -, -, rfl⟩ | ⟨-, rfl⟩
  · rwa [groups_update]
  · exact hgroups

end Aside

end ParseState

end Sdp
end XrtcServer
