import XrtcServer.ExceptFolds
import XrtcServer.SdpText

/-! What is found in the lines of a description. -/
namespace XrtcServer
namespace Sdp
variable {x y line name value rest : Text} {c : Char} {pattern : String}

/-- A line with a value after its name, and more after a blank. -/
def valueLine (name value rest : Text) : Text := 'a' :: '=' :: (name ++ ':' :: value) ++ ' ' :: rest

section Patterns

/-- In a line with one sign of equality a pattern is found at that sign. -/
theorem not_found_of_equals {u v : Text} (hp : pattern.toList = u ++ '=' :: v) (hy : '=' ∉ y)
    (h : ¬ (u <:+ ['a'] ∧ v <+: y)) : found ('a' :: '=' :: y) pattern = false :=
  not_found_of_aligned (x := ['a']) hp (by decide) hy h

/-- The names that something is read from in every medium. -/
def names : List String := ["ice-ufrag", "ice-pwd", "fingerprint", "ssrc:", "ssrc-group:"]

/-- A line that neither a medium, nor its transport, nor a source is read from. -/
structure Still (line : Text) : Prop where
  unmarked : Unmarked line
  ssrc : found line "a=ssrc:" = false
  group : found line "a=ssrc-group:" = false

instance (line : Text) : Decidable (Still line) :=
  decidable_of_iff (Unmarked line ∧ found line "a=ssrc:" = false ∧ found line "a=ssrc-group:" = false)
    ⟨fun h => ⟨h.1, h.2.1, h.2.2⟩, fun h => ⟨h.unmarked, h.ssrc, h.group⟩⟩

theorem not_found_medium (hy : '=' ∉ y) : found ('a' :: '=' :: y) "m=" = false :=
  not_found_of_equals (u := ['m']) (v := []) rfl hy fun h => absurd h.1 (by decide)

/-- In a line that starts with its only sign of equality, the name decides. -/
theorem not_found_of_name {name : String} (hp : pattern.toList = 'a' :: '=' :: name.toList) (hy : '=' ∉ y)
    (h : ¬ name.toList <+: y) : found ('a' :: '=' :: y) pattern = false :=
  not_found_of_equals (u := ['a']) hp hy fun hboth => h hboth.2

theorem still_of_equals (hy : '=' ∉ y) (h : ∀ name ∈ names, ¬ name.toList <+: y) : Still ('a' :: '=' :: y) := by
  refine ⟨?_, not_found_of_name rfl hy (h "ssrc:" (by decide)), not_found_of_name rfl hy (h "ssrc-group:" (by decide))⟩
  intro marker hmarker
  simp only [markers, List.mem_cons, List.not_mem_nil, or_false] at hmarker
  rcases hmarker with rfl | rfl | rfl | rfl
  · exact not_found_medium hy
  · exact not_found_of_name rfl hy (h "ice-ufrag" (by decide))
  · exact not_found_of_name rfl hy (h "ice-pwd" (by decide))
  · exact not_found_of_name rfl hy (h "fingerprint" (by decide))

/-- What follows a blank may not have a colon. -/
theorem Still.append (h : Still x) (hy : ':' ∉ y) (hunmarked : Unmarked y) : Still (x ++ ' ' :: y) where
  unmarked := (unmarked_append_cons (.inr rfl)).mpr ⟨h.unmarked, hunmarked⟩
  ssrc := (found_append_cons (by decide)).mpr ⟨h.ssrc, found_of_not_mem (by decide : ':' ∈ "a=ssrc:".toList) hy⟩
  group := (found_append_cons (by decide)).mpr ⟨h.group, found_of_not_mem (by decide : ':' ∈ "a=ssrc-group:".toList) hy⟩

/-- A line that no codec is read from. -/
structure Codecless (line : Text) : Prop where
  fmtp : found line "level-asymmetry-allowed=1" = false
  rtpmap : found line "rtx/90000" = false

instance (line : Text) : Decidable (Codecless line) :=
  decidable_of_iff (found line "level-asymmetry-allowed=1" = false ∧ found line "rtx/90000" = false)
    ⟨fun h => ⟨h.1, h.2⟩, fun h => ⟨h.fmtp, h.rtpmap⟩⟩

theorem not_found_fmtp (hy : '=' ∉ y) : found ('a' :: '=' :: y) "level-asymmetry-allowed=1" = false :=
  not_found_of_equals (u := "level-asymmetry-allowed".toList) rfl hy fun h => absurd h.1 (by decide)

end Patterns

section Codecs

theorem not_mem_decimal_separator (n : ℤ) : '=' ∉ decimal n ∧ ':' ∉ decimal n ∧ ' ' ∉ decimal n ∧ '\n' ∉ decimal n :=
  ⟨not_mem_decimal (by decide) (by decide), not_mem_decimal (by decide) (by decide), not_mem_decimal (by decide) (by decide),
    not_mem_decimal (by decide) (by decide)⟩

theorem buildRtpMap_audio {content : MediaContentDescription} (h : content.kind = .audio) :
    buildRtpMap content = [("rtpmap", "opus/48000/2"), ("rtcp-fb", "transport-cc"), ("fmtp", "minptime=10;useinbandfec=1")].map
      fun line => valueLine line.1.toList (decimal 111) line.2.toList := by
  have hrate : decimal 48000 = "48000".toList := rfl
  have hchannels : decimal 2 = "2".toList := rfl
  simp [buildRtpMap, MediaContentDescription.codecs, h, MediaKind.codecs, MediaKind.type, addRtcpFbLine, addFmtpLine, valueLine, hrate,
    hchannels]

theorem buildRtpMap_video {content : MediaContentDescription} {h264CodecId rtxCodecId : ℤ}
    (h : content.kind = .video h264CodecId rtxCodecId) :
    buildRtpMap content =
      ([("rtpmap", "H264/90000"), ("rtcp-fb", "goog-remb"), ("rtcp-fb", "transport-cc"), ("rtcp-fb", "ccm fir"), ("rtcp-fb", "nack"),
        ("rtcp-fb", "nack pli"), ("fmtp", "level-asymmetry-allowed=1;packetization-mode=1;profile-level-id=42e01f")].map
        fun line => valueLine line.1.toList (decimal h264CodecId) line.2.toList) ++
      [valueLine "rtpmap".toList (decimal rtxCodecId) "rtx/90000".toList,
       valueLine "fmtp".toList (decimal rtxCodecId) ("apt".toList ++ '=' :: decimal h264CodecId)] := by
  have hrate : decimal 90000 = "90000".toList := rfl
  simp [buildRtpMap, MediaContentDescription.codecs, h, MediaKind.codecs, MediaKind.type, addRtcpFbLine, addFmtpLine, valueLine, hrate]

/-- What follows the identifier of a codec. -/
structure CodecText (text : Text) : Prop where
  unmarked : Unmarked text
  colon : ':' ∉ text
  newline : '\n' ∉ text

instance (text : Text) : Decidable (CodecText text) :=
  decidable_of_iff (Unmarked text ∧ ':' ∉ text ∧ '\n' ∉ text)
    ⟨fun h => ⟨h.1, h.2.1, h.2.2⟩, fun h => ⟨h.unmarked, h.colon, h.newline⟩⟩

theorem codecText_apt (n : ℤ) : CodecText ("apt".toList ++ '=' :: decimal n) := by
  obtain ⟨heq, hcolon, -, hnewline⟩ := not_mem_decimal_separator n
  refine ⟨?_, by simpa using hcolon, by simpa using hnewline⟩
  intro marker hmarker
  simp only [markers, List.mem_cons, List.not_mem_nil, or_false] at hmarker
  rcases hmarker with rfl | rfl | rfl | rfl
  · exact not_found_of_aligned (u := ['m']) (v := []) rfl (by decide) heq fun h => absurd h.1 (by decide)
  · exact not_found_of_aligned (u := ['a']) rfl (by decide) heq fun h => absurd h.1 (by decide)
  · exact not_found_of_aligned (u := ['a']) rfl (by decide) heq fun h => absurd h.1 (by decide)
  · exact not_found_of_aligned (u := ['a']) rfl (by decide) heq fun h => absurd h.1 (by decide)

/-- The names of the lines of codecs. -/
def codecNames : List String := ["rtpmap", "rtcp-fb", "fmtp"]

theorem mem_buildRtpMap {content : MediaContentDescription} (h : line ∈ buildRtpMap content) :
    ∃ name ∈ codecNames, ∃ n text, line = valueLine name.toList (decimal n) text ∧ CodecText text := by
  have hfixed {codecLines : List (String × String)} {n : ℤ}
      (hlines : ∀ l ∈ codecLines, l.1 ∈ codecNames ∧ CodecText l.2.toList)
      (hmem : line ∈ codecLines.map fun l => valueLine l.1.toList (decimal n) l.2.toList) :
      ∃ name ∈ codecNames, ∃ n text, line = valueLine name.toList (decimal n) text ∧ CodecText text := by
    obtain ⟨l, hl, rfl⟩ := List.mem_map.mp hmem
    exact ⟨l.1, (hlines l hl).1, n, l.2.toList, rfl, (hlines l hl).2⟩
  cases hkind : content.kind with
  | audio =>
    rw [buildRtpMap_audio hkind] at h
    exact hfixed (by decide +kernel) h
  | video h264CodecId rtxCodecId =>
    rw [buildRtpMap_video hkind] at h
    rcases List.mem_append.mp h with h | h
    · exact hfixed (by decide +kernel) h
    · rcases List.mem_cons.mp h with rfl | h
      · exact ⟨"rtpmap", by decide, rtxCodecId, _, rfl, by decide +kernel⟩
      · obtain rfl := List.mem_singleton.mp h
        exact ⟨"fmtp", by decide, rtxCodecId, _, rfl, codecText_apt h264CodecId⟩

theorem still_codecLine {name : String} (h : name ∈ codecNames) {n : ℤ} {text : Text} (htext : CodecText text) :
    Still (valueLine name.toList (decimal n) text) := by
  have heq : '=' ∉ name.toList ++ ':' :: decimal n := by
    have hname : ∀ name ∈ codecNames, '=' ∉ name.toList := by decide
    simpa using ⟨hname name h, (not_mem_decimal_separator n).1⟩
  refine (still_of_equals heq ?_).append htext.colon htext.unmarked
  simp only [codecNames, List.mem_cons, List.not_mem_nil, or_false] at h
  intro name' hname'
  simp only [names, List.mem_cons, List.not_mem_nil, or_false] at hname'
  rcases h with rfl | rfl | rfl <;> rcases hname' with rfl | rfl | rfl | rfl | rfl <;> simp

/-- A codec identifier is read in every line with a value. -/
theorem parseCodecInfo_valueLine (hname : ':' ∉ name ∧ ' ' ∉ name ∧ name ≠ []) (hvalue : ':' ∉ value ∧ ' ' ∉ value ∧ value ≠ [])
    (codecId : ℤ) (patterns : List String) : ∃ n, parseCodecInfo codecId patterns (valueLine name value rest) = .ok n := by
  have hfirst : ' ' ∉ name ++ ':' :: value := by
    simpa using ⟨hname.2.1, hvalue.2.1⟩
  have hsubstr : substr (valueLine name value rest) 2 = .ok ((name ++ ':' :: value) ++ ' ' :: rest) := rfl
  obtain ⟨field, fields, hfields⟩ := List.exists_cons_of_ne_nil (split_ne_nil rest ' ')
  have hattr : getAttribute (name ++ ':' :: value) = value := getAttribute_eq hname.1 hvalue.1 hname.2.2
  rw [parseCodecInfo]
  split
  · exact ⟨codecId, rfl⟩
  · split
    · exact ⟨codecId, rfl⟩
    · refine ⟨atoi value, ?_⟩
      rw [hsubstr, ExceptFolds.ok_bind, split_append_cons hfirst, hfields]
      dsimp only
      rw [hattr, if_neg hvalue.2.2]
      rfl

theorem parseCodecInfo_codecless (h : Codecless line) (codecId : ℤ) :
    parseFmtpInfo codecId line = .ok codecId ∧ parseRtpmapInfo codecId line = .ok codecId := by
  constructor
  · simp [parseFmtpInfo, parseCodecInfo, h.fmtp]
  · simp [parseRtpmapInfo, parseCodecInfo, h.rtpmap]

end Codecs

end Sdp
end XrtcServer
