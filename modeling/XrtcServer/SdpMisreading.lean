import XrtcServer.SdpRecovery

/-! A description with the pattern of another line in one of its texts is misread, and one with a
bundle does not get it back. -/
namespace XrtcServer
namespace Sdp
open XrtcServer.Stream
variable {desc remote : SessionDescription} {content : MediaContentDescription} {line : Text} {lines : List Text} {k : MediaType}
  {dtlsOn : Bool} {s s' : ParseState} {track : StreamParams} {group : SsrcGroup} {ssrc n : UInt32} {infos infos' : List SsrcInfo}

section Invariants

/-- What every medium has, whatever is read. -/
structure Sound (m : MediaState) (k : MediaType) : Prop where
  mid : m.td.mid = "" ∨ m.td.mid = k.mid
  pushed : m.existPushSource = true → m.td.mid = k.mid
  fingerprint : ∀ fp ∈ m.td.identityFingerprint, fp.Valid

/-- The patterns that the transport is read by. -/
def transportMarkers : List String := ["a=ice-ufrag", "a=ice-pwd", "a=fingerprint"]

/-- What a line can be for a transport: the name, the password, the fingerprint, or none of them. -/
theorem parseTransportInfo_cases {td td' : TransportDescription} (hok : parseTransportInfo td line = .ok td') :
    (found line "a=ice-ufrag" = true ∧ getAttribute line ≠ [] ∧ td' = { td with iceUfrag := String.ofList (getAttribute line) }) ∨
    (found line "a=ice-pwd" = true ∧ getAttribute line ≠ [] ∧ td' = { td with icePwd := String.ofList (getAttribute line) }) ∨
    (found line "a=fingerprint" = true ∧ ∃ item text alg fp, tokenize line ' ' = [item, text] ∧ substr item 14 = .ok alg ∧
      SSLFingerprint.createUniqueFromRfc4572 (alg.map Char.toLower) text = some fp ∧ td' = { td with identityFingerprint := some fp }) ∨
    (td' = td ∧ ∀ marker ∈ transportMarkers, found line marker = false) := by
  rw [parseTransportInfo] at hok
  dsimp only at hok
  split at hok
  · rename_i hufrag
    split at hok
    · cases hok
    · rename_i hsome
      exact .inl ⟨hufrag, hsome, (Except.ok.inj hok).symm⟩
  · rename_i hufrag
    split at hok
    · rename_i hpwd
      split at hok
      · cases hok
      · rename_i hsome
        exact .inr (.inl ⟨hpwd, hsome, (Except.ok.inj hok).symm⟩)
    · rename_i hpwd
      split at hok
      · rename_i hfingerprint
        split at hok
        · rename_i item text htokens
          obtain ⟨alg, halg, hok⟩ := ExceptFolds.bind_eq_ok hok
          split at hok
          · cases hok
          · rename_i fp hfp
            exact .inr (.inr (.inl ⟨hfingerprint, item, text, alg, fp, htokens, halg, hfp, (Except.ok.inj hok).symm⟩))
        · cases hok
      · rename_i hfingerprint
        refine .inr (.inr (.inr ⟨(Except.ok.inj hok).symm, fun marker hmarker => ?_⟩))
        simp only [transportMarkers, List.mem_cons, List.not_mem_nil, or_false] at hmarker
        rcases hmarker with rfl | rfl | rfl
        · exact Bool.eq_false_iff.mpr hufrag
        · exact Bool.eq_false_iff.mpr hpwd
        · exact Bool.eq_false_iff.mpr hfingerprint

/-- A line changes a fingerprint only to a valid one. -/
theorem parseTransportInfo_sound {td td' : TransportDescription} (h : ∀ fp ∈ td.identityFingerprint, fp.Valid)
    (hok : parseTransportInfo td line = .ok td') : td'.mid = td.mid ∧ ∀ fp ∈ td'.identityFingerprint, fp.Valid := by
  rcases parseTransportInfo_cases hok with ⟨-, -, rfl⟩ | ⟨-, -, rfl⟩ | ⟨-, item, text, alg, fp, -, -, hfp, rfl⟩ | ⟨rfl, -⟩
  · exact ⟨rfl, h⟩
  · exact ⟨rfl, h⟩
  · refine ⟨rfl, ?_⟩
    rintro fp' ⟨⟩
    exact valid_of_createUniqueFromRfc4572 hfp
  · exact ⟨rfl, h⟩

theorem sound_parseLine (h : ∀ k, Sound (s.media k) k) (hok : s.parseLine line = .ok s') (k : MediaType) : Sound (s'.media k) k := by
  obtain ⟨t, hmedia, hcases⟩ := ParseState.parseLine_cases hok
  have ht (k : MediaType) : Sound (t.media k) k := by
    rcases ParseState.media_of_parseMedia hmedia k with hsame | hmarked
    · rw [hsame]
      exact h k
    · rw [hmarked]
      exact ⟨.inr rfl, fun _ => rfl, (h k).fingerprint⟩
  rcases hcases with ⟨k', -, td, ssrcInfo, groups, ids, htd, -, rfl⟩ | ⟨-, rfl⟩
  · by_cases hk : k' = k
    · subst hk
      obtain ⟨hmid, hvalid⟩ := parseTransportInfo_sound (ht k').fingerprint htd
      rw [ParseState.media_update]
      refine ⟨?_, fun hpushed => ?_, hvalid⟩
      · rw [hmid]
        exact (ht k').mid
      · rw [hmid]
        exact (ht k').pushed hpushed
    · rw [ParseState.media_update_of_ne hk]
      exact ht k
  · exact ht k

theorem sound_of_run (hok : lines.foldlM ParseState.parseLine {} = .ok s) (k : MediaType) : Sound (s.media k) k := by
  have hstart (k : MediaType) : Sound (({} : ParseState).media k) k := by
    cases k <;> exact ⟨.inl rfl, fun h => Bool.noConfusion h, by rintro fp ⟨⟩⟩
  exact ExceptFolds.invariant_of_ok (I := fun s => ∀ k, Sound (s.media k) k)
    (fun line _ s s' hline hs => sound_parseLine hs hline) hstart hok k

/-- What is read at all has a run behind it. -/
theorem exists_run {sdp : Text} (h : setRemoteSdp sdp = .ok remote) :
    ∃ (lines : List Text) (s : ParseState), lines.foldlM ParseState.parseLine {} = .ok s ∧ remote = s.remoteDesc := by
  obtain ⟨s, hrun, hremote⟩ := setRemoteSdp_ok h
  exact ⟨_, s, hrun, hremote⟩

/-- Every fingerprint that is read is a valid one. -/
theorem valid_transportOf {sdp : Text} (h : setRemoteSdp sdp = .ok remote) (mid : String) :
    ∀ fp ∈ (remote.transportOf mid).2.2, fp.Valid := by
  obtain ⟨lines, s, hrun, rfl⟩ := exists_run h
  intro fp hfp
  rw [SessionDescription.transportOf] at hfp
  cases htd : s.remoteDesc.getTransportInfo mid with
  | none =>
    rw [htd] at hfp
    cases hfp
  | some td =>
    rw [htd] at hfp
    have hmem : td ∈ [s.audio.td, s.video.td] := List.mem_of_find?_eq_some htd
    simp only [List.mem_cons, List.not_mem_nil, or_false] at hmem
    rcases hmem with rfl | rfl
    · exact (sound_of_run hrun .audio).fingerprint fp hfp
    · exact (sound_of_run hrun .video).fingerprint fp hfp

end Invariants

section Media

/-- The lines of the tracks start no medium. -/
theorem aside_buildSsrc (h : line ∈ buildSsrc content) : ParseState.Aside line := by
  have hmarker : "a=ssrc:".toList = "a=ssrc".toList ++ ":".toList := by decide
  have hgroup : "a=ssrc-group:".toList = "a=ssrc".toList ++ "-group:".toList := by decide
  obtain ⟨track, htrack, hline⟩ := mem_buildSsrc h
  rcases hline with ⟨group, hgroups, rfl⟩ | ⟨ssrc, -, attr, -, value, -, rfl⟩
  · unfold addSsrcGroupLine
    rw [hgroup, List.append_assoc, List.append_assoc]
    exact .inr (List.prefix_append _ _)
  · unfold addSsrcLine
    rw [hmarker, List.append_assoc, List.append_assoc, List.append_assoc, List.append_assoc, List.append_assoc]
    exact .inr (List.prefix_append _ _)

/-- No line of the tracks has the pattern of a bundle. -/
theorem not_found_bundle_buildSsrc (hc : content.Proper) (h : line ∈ buildSsrc content) : found line "m=group:BUNDLE" = false := by
  obtain ⟨track, htrack, hline⟩ := mem_buildSsrc h
  rcases hline with ⟨group, hgroup, rfl⟩ | ⟨ssrc, -, attr, hattr, value, hvalue, rfl⟩
  · obtain ⟨ssrc, ssrcs, hssrcs⟩ := List.exists_cons_of_ne_nil (mem_printedGroups.mp hgroup).2
    have hword := (hc.readable track htrack).groups group hgroup
    have hfirst : found ("a=ssrc-group".toList ++ ':' :: group.semantics.toList) "m=group:BUNDLE" = false :=
      not_found_of_aligned (u := "m=group".toList) (v := "BUNDLE".toList) rfl (by decide) hword.colon fun h => absurd h.1 (by decide)
    have hrest : ':' ∉ decimal ssrc.toNat ++ numbers ssrcs := by
      simpa using ⟨(not_mem_decimal_separator ssrc.toNat).2.1, not_mem_numbers ssrcs (by decide) (by decide) (by decide)⟩
    rw [addSsrcGroupLine_eq ssrcs hssrcs, valueLine, found_append_cons_eq (by decide)]
    exact Bool.or_eq_false_iff.mpr ⟨hfirst, found_of_not_mem (by decide : ':' ∈ "m=group:BUNDLE".toList) hrest⟩
  · have hends : ∀ attr ∈ attributes, ¬ "m=group".toList <:+ attr.toList := by decide
    have hfirst : found ("a=ssrc".toList ++ ':' :: decimal ssrc.toNat) "m=group:BUNDLE" = false :=
      not_found_of_aligned (u := "m=group".toList) (v := "BUNDLE".toList) rfl (by decide) (not_mem_decimal_separator _).2.1
        fun h => absurd h.1 (by decide)
    rw [addSsrcLine_eq, valueLine, found_append_cons_eq (by decide)]
    refine Bool.or_eq_false_iff.mpr ⟨hfirst, ?_⟩
    exact not_found_of_aligned (u := "m=group".toList) (v := "BUNDLE".toList) rfl (not_mem_attribute hattr).2.1
      ((hc.readable track htrack).named.not_mem_value hvalue).1 fun h => hends attr hattr h.1

variable (hc : content.Proper) (ht : PlainTransport (desc.getTransportInfo content.mid))
  (hv : ValidTransport (desc.getTransportInfo content.mid))
include hc ht hv

theorem mem_contentLines (h : line ∈ desc.contentLines dtlsOn content) :
    line = mediaLine content dtlsOn ∨ Side line ∨ line ∈ buildSsrc content := by
  rw [contentLines_eq] at h
  simp only [List.mem_cons, List.mem_append] at h
  rcases h with h | h | h | h
  · exact .inl h
  · exact .inr (.inl (side_of_mem hc ht hv (List.mem_append_left _ h)))
  · exact .inr (.inr h)
  · exact .inr (.inl (side_of_mem hc ht hv (List.mem_append_right _ h)))

/-- The lines of another content leave the medium. -/
theorem media_of_other (hk : content.kind.type ≠ k) (hok : (desc.contentLines dtlsOn content).foldlM ParseState.parseLine s = .ok s') :
    s'.media k = s.media k := by
  rw [contentLines_eq, ExceptFolds.foldlM_cons_ok ParseState.parseLine_mediaLine] at hok
  obtain rfl := (content.kind.type.eq_or_eq_other k).resolve_left hk.symm
  have hstart : (s.enter content.kind.type).mediaType ≠ content.kind.type.other.mid.toList := by
    rw [ParseState.mediaType_enter]
    exact fun h => hk (MediaType.mid_injective h)
  have hkeep := ExceptFolds.invariant_of_ok
    (I := fun t => t.mediaType ≠ content.kind.type.other.mid.toList ∧
      t.media content.kind.type.other = s.media content.kind.type.other)
    (fun line hline t t' hstep hI => ?_) ⟨hstart, ParseState.media_other_enter⟩ hok
  · exact hkeep.2
  · have haside : ParseState.Aside line := by
      rcases List.mem_append.mp hline with hline | hline
      · exact .inl (side_of_mem hc ht hv (List.mem_append_left _ hline)).medium
      · rcases List.mem_append.mp hline with hline | hline
        · exact aside_buildSsrc hline
        · exact .inl (side_of_mem hc ht hv (List.mem_append_right _ hline)).medium
    obtain ⟨htype, hmedia⟩ := ParseState.parseLine_aside haside hI.1 hstep
    exact ⟨htype, hmedia.trans hI.2⟩

/-- No line of a content has the pattern of a bundle. -/
theorem not_found_bundle_contentLines (h : line ∈ desc.contentLines dtlsOn content) : found line "m=group:BUNDLE" = false := by
  rcases mem_contentLines hc ht hv h with rfl | h | h
  · obtain ⟨fields, hline, -, hcolon, -⟩ := ParseState.mediaLine_eq content dtlsOn
    have hmid : ':' ∉ content.mid.toList := (ParseState.not_mem_mid content.kind.type).2.1
    refine found_of_not_mem (by decide : ':' ∈ "m=group:BUNDLE".toList) ?_
    rw [hline]
    simp [hmid, hcolon]
  · exact ParseState.not_found_bundle h.medium
  · exact not_found_bundle_buildSsrc hc h

end Media

section Failures
variable {attr text : String} {td td' : TransportDescription}

/-- The name of an algorithm has the one character and not the other. -/
theorem createUniqueFromRfc4572_eq_none {algorithm fingerprint : Text} (h : ¬ ('s' ∈ algorithm ∧ '=' ∉ algorithm)) :
    SSLFingerprint.createUniqueFromRfc4572 algorithm fingerprint = none := by
  have hnames : ∀ name ∈ ["sha-1", "sha-224", "sha-256", "sha-384", "sha-512"], 's' ∈ name.toList ∧ '=' ∉ name.toList := by decide
  rw [SSLFingerprint.createUniqueFromRfc4572, if_pos]
  refine .inr fun hfips => h ?_
  have hchars := hnames (String.ofList algorithm) (of_decide_eq_true hfips)
  rwa [String.toList_ofList] at hchars

theorem mem_drop_of_infix {c : Char} {x y : Text} (hc : c ∈ x.drop 1) (h : x <:+: y) : c ∈ y.drop 1 := by
  obtain ⟨l, r, rfl⟩ := h
  cases l with
  | nil =>
    cases x with
    | nil => cases hc
    | cons a x => exact List.mem_append_left _ hc
  | cons a l =>
    have hmem : c ∈ x := List.mem_of_mem_drop hc
    exact List.mem_append_left _ (List.mem_append_right _ hmem)

theorem toLower_ne_of_mem_decimal {n : ℤ} {c : Char} (h : c ∈ decimal n) : c.toLower ≠ 's' := by
  rcases mem_decimal h with rfl | hdigit
  · decide
  · have hsame : c.toLower = c := by
      simp only [Char.isDigit, Bool.and_eq_true, decide_eq_true_eq, ge_iff_le, UInt32.le_iff_toNat_le] at hdigit
      have hle : c.val.toNat ≤ 57 := hdigit.2
      refine dif_neg fun hupper => ?_
      simp only [ge_iff_le, UInt32.le_iff_toNat_le] at hupper
      have hge : 65 ≤ c.val.toNat := hupper.1
      omega
    rw [hsame]
    rintro rfl
    revert hdigit
    decide

theorem split_addSsrcLine (hattr : attr ∈ attributes) (h : Word text) : split (addSsrcLine ssrc attr.toList text.toList) ' ' =
    ['a' :: '=' :: ("ssrc".toList ++ ':' :: decimal ssrc.toNat), attr.toList ++ ':' :: text.toList] := by
  have hfirst : ' ' ∉ 'a' :: '=' :: ("ssrc".toList ++ ':' :: decimal ssrc.toNat) := by
    simpa using (not_mem_decimal_separator ssrc.toNat).2.2.1
  have hsecond : ' ' ∉ attr.toList ++ ':' :: text.toList := by
    simpa using ⟨(not_mem_attribute hattr).2.2.1, h.blank⟩
  rw [addSsrcLine_eq, valueLine, split_append_cons hfirst, split_of_not_mem hsecond]

/-- A line of a source with the pattern of a medium is not read. -/
theorem parseLine_of_medium (hattr : attr ∈ attributes) (h : Word text) (hbundle : found (addSsrcLine ssrc attr.toList text.toList)
    "m=group:BUNDLE" = false) (hmedium : found text.toList "m=" = true) :
    s.parseLine (addSsrcLine ssrc attr.toList text.toList) ≠ .ok s' := by
  have hfound : found (addSsrcLine ssrc attr.toList text.toList) "m=" = true := by
    rw [found_marker_addSsrcLine hattr (by decide)]
    exact hmedium
  have hmedia : s.parseMedia (addSsrcLine ssrc attr.toList text.toList) = .error .error := by
    rw [ParseState.parseMedia, if_neg (by rw [hbundle]; decide), if_pos hfound, split_addSsrcLine hattr h]
  rw [ParseState.parseLine, hmedia]
  exact fun h => by cases h

/-- A line of a source with a pattern of the transport is not read. -/
theorem parseTransportInfo_source (hattr : attr ∈ attributes) (h : Word text)
    (hok : parseTransportInfo td (addSsrcLine ssrc attr.toList text.toList) = .ok td') :
    ∀ marker ∈ transportMarkers, found text.toList marker = false := by
  have hmarkers : ∀ marker ∈ transportMarkers, marker ∈ markers := by decide
  have hname : ':' ∉ 'a' :: '=' :: "ssrc".toList := by decide
  have hnumber : ':' ∉ decimal ssrc.toNat ++ ' ' :: attr.toList := by
    simpa using ⟨(not_mem_decimal_separator ssrc.toNat).2.1, (not_mem_attribute hattr).2.1⟩
  have hline : addSsrcLine ssrc attr.toList text.toList =
      ('a' :: '=' :: "ssrc".toList) ++ ':' :: ((decimal ssrc.toNat ++ ' ' :: attr.toList) ++ ':' :: text.toList) := by
    rw [addSsrcLine_eq]
    generalize decimal ssrc.toNat = number
    simp [valueLine]
  have hattribute : getAttribute (addSsrcLine ssrc attr.toList text.toList) = [] := by
    rw [getAttribute, hline, tokenize_append_cons hname (List.cons_ne_nil _ _), tokenize_append_cons hnumber (by simp),
      tokenize_of_not_mem h.colon h.nonempty]
  have hfound {marker : String} (hmarker : marker ∈ transportMarkers) :
      found (addSsrcLine ssrc attr.toList text.toList) marker = found text.toList marker :=
    found_marker_addSsrcLine hattr (hmarkers marker hmarker)
  have hnofingerprint : ∀ alg, substr ('a' :: '=' :: ("ssrc".toList ++ ':' :: decimal ssrc.toNat)) 14 = .ok alg →
      SSLFingerprint.createUniqueFromRfc4572 (alg.map Char.toLower) (attr.toList ++ ':' :: text.toList) = none := by
    intro alg halg
    refine createUniqueFromRfc4572_eq_none ?_
    rintro ⟨hmem, -⟩
    obtain ⟨c, hc, hlower⟩ := List.mem_map.mp hmem
    have hdrop := drop_of_substr halg
    have hdigits : alg = (decimal ssrc.toNat).drop 7 := by
      rw [hdrop]
      rfl
    rw [hdigits] at hc
    exact toLower_ne_of_mem_decimal (List.mem_of_mem_drop hc) hlower
  have htokens : tokenize (addSsrcLine ssrc attr.toList text.toList) ' ' =
      ['a' :: '=' :: ("ssrc".toList ++ ':' :: decimal ssrc.toNat), attr.toList ++ ':' :: text.toList] := by
    rw [tokenize, split_addSsrcLine hattr h]
    simp
  rcases parseTransportInfo_cases hok with ⟨-, hsome, -⟩ | ⟨-, hsome, -⟩ | ⟨-, item, content, alg, fp, htokens', halg, hread, -⟩ | ⟨-, hall⟩
  · exact absurd hattribute hsome
  · exact absurd hattribute hsome
  · rw [htokens] at htokens'
    obtain ⟨rfl, htail⟩ := List.cons.inj htokens'
    obtain rfl := List.head_eq_of_cons_eq htail
    rw [hnofingerprint alg halg] at hread
    cases hread
  · intro marker hmarker
    rw [← hfound hmarker]
    exact hall marker hmarker

/-- A credential that no description has. -/
def Spaced (td : TransportDescription) : Prop := ' ' ∈ td.iceUfrag.toList ∨ ' ' ∈ td.icePwd.toList

/-- A line of a group with a pattern of the transport is not read, or is read as a credential. -/
theorem parseTransportInfo_group (h : Word group.semantics) (hne : group.ssrcs ≠ [])
    (hok : parseTransportInfo td (addSsrcGroupLine group) = .ok td') :
    td' = td ∧ (∀ marker ∈ transportMarkers, found group.semantics.toList marker = false) ∨ Spaced td' := by
  obtain ⟨ssrc, ssrcs, hssrcs⟩ := List.exists_cons_of_ne_nil hne
  have hmarkers : ∀ marker ∈ transportMarkers, marker ∈ markers := by decide
  have hfound {marker : String} (hmarker : marker ∈ transportMarkers) :
      found (addSsrcGroupLine group) marker = found group.semantics.toList marker :=
    found_marker_addSsrcGroupLine hne (hmarkers marker hmarker)
  have hname : ':' ∉ 'a' :: '=' :: "ssrc-group".toList := by decide
  have hrest : ':' ∉ group.semantics.toList ++ ' ' :: (decimal ssrc.toNat ++ numbers ssrcs) := by
    have hnumber := (not_mem_decimal_separator ssrc.toNat).2.1
    have hnumbers := not_mem_numbers ssrcs (by decide : ':' ≠ ' ') (by decide) (by decide)
    simp [h.colon, hnumber, hnumbers]
  have hline : addSsrcGroupLine group =
      ('a' :: '=' :: "ssrc-group".toList) ++ ':' :: (group.semantics.toList ++ ' ' :: (decimal ssrc.toNat ++ numbers ssrcs)) := by
    rw [addSsrcGroupLine_eq ssrcs hssrcs]
    generalize decimal ssrc.toNat ++ numbers ssrcs = rest
    simp [valueLine]
  have hattribute : getAttribute (addSsrcGroupLine group) =
      group.semantics.toList ++ ' ' :: (decimal ssrc.toNat ++ numbers ssrcs) := by
    rw [hline]
    exact getAttribute_eq hname hrest (List.cons_ne_nil _ _)
  have hblank : ' ' ∈ getAttribute (addSsrcGroupLine group) := by
    rw [hattribute]
    exact List.mem_append_right _ List.mem_cons_self
  rcases parseTransportInfo_cases hok with ⟨-, -, rfl⟩ | ⟨-, -, rfl⟩ | ⟨hfp, item, content, alg, fp, htokens, halg, hread, -⟩ | ⟨rfl, hall⟩
  · exact .inr (.inl (by rwa [String.toList_ofList]))
  · exact .inr (.inr (by rwa [String.toList_ofList]))
  · -- the algorithm begins with the name of the group, which holds `a=fingerprint`
    have hfirst : ' ' ∉ 'a' :: '=' :: ("ssrc-group".toList ++ ':' :: group.semantics.toList) := by
      simpa using h.blank
    rw [addSsrcGroupLine_eq ssrcs hssrcs, valueLine, tokenize_append_cons hfirst (List.cons_ne_nil _ _)] at htokens
    obtain ⟨rfl, -⟩ := List.cons.inj htokens
    have hdrop : alg = group.semantics.toList.drop 1 := by
      rw [drop_of_substr halg]
      rfl
    have hequals : '=' ∈ alg := by
      rw [hfound (by decide), found_iff] at hfp
      rw [hdrop]
      exact mem_drop_of_infix (by decide) hfp
    have hlower : '=' ∈ alg.map Char.toLower := List.mem_map.mpr ⟨'=', hequals, by decide⟩
    rw [createUniqueFromRfc4572_eq_none fun hchars => hchars.2 hlower] at hread
    cases hread
  · refine .inl ⟨rfl, fun marker hmarker => ?_⟩
    rw [← hfound hmarker]
    exact hall marker hmarker

end Failures

section Lost

/-- No line so far was read as one of the source. -/
def Lacks (n : UInt32) (infos : List SsrcInfo) : Prop := ∀ info ∈ infos, info.ssrcId ≠ n

theorem Lacks.updateSsrcInfo (h : Lacks n infos) (hne : ssrc ≠ n) {f : SsrcInfo → SsrcInfo} (hf : ∀ info, (f info).ssrcId = info.ssrcId) :
    Lacks n (updateSsrcInfo infos ssrc f) := by
  intro info hinfo
  rw [Sdp.updateSsrcInfo] at hinfo
  split at hinfo
  · obtain ⟨i, hi, rfl⟩ := List.mem_iff_getElem.mp hinfo
    have hlt : i < infos.length := by simpa using hi
    rw [List.getElem_modify]
    split
    · rw [hf]
      exact h _ (List.getElem_mem hlt)
    · exact h _ (List.getElem_mem hlt)
  · rcases List.mem_append.mp hinfo with hinfo | hinfo
    · exact h info hinfo
    · obtain rfl := List.mem_singleton.mp hinfo
      rw [hf]
      exact hne

/-- A line that is not one of the source. -/
def Elsewhere (n : UInt32) (line : Text) : Prop :=
  found line "a=ssrc:" = false ∨
    ∃ ssrc, ssrc ≠ n ∧ ∃ attr ∈ attributes, ∃ value : Text, ':' ∉ value ∧ line = addSsrcLine ssrc attr.toList value

theorem Lacks.parseSsrcInfo (h : Lacks n infos) (hline : Elsewhere n line) (hok : parseSsrcInfo infos line = .ok infos') :
    Lacks n infos' := by
  rcases hline with hline | ⟨ssrc, hne, attr, hattr, value, hvalue, rfl⟩
  · rw [parseSsrcInfo_of_not_found hline] at hok
    exact Except.ok.inj hok ▸ h
  · rw [parseSsrcInfo_addSsrcLine attr hattr (head?_ne_of_not_mem hvalue)] at hok
    split at hok
    · exact Except.ok.inj hok ▸ h.updateSsrcInfo hne fun _ => rfl
    · split at hok
      · split at hok
        · exact Except.ok.inj hok ▸ h.updateSsrcInfo hne fun _ => rfl
        · exact Except.ok.inj hok ▸ h.updateSsrcInfo hne fun _ => rfl
        · cases hok
      · exact Except.ok.inj hok ▸ h.updateSsrcInfo hne fun _ => rfl

theorem lacks_parseLine (h : Lacks n (s.media k).ssrcInfo) (hline : Elsewhere n line) (hok : s.parseLine line = .ok s') :
    Lacks n (s'.media k).ssrcInfo := by
  obtain ⟨t, hmedia, hcases⟩ := ParseState.parseLine_cases hok
  have ht : Lacks n (t.media k).ssrcInfo := by
    rcases ParseState.media_of_parseMedia hmedia k with hsame | hmarked
    · rwa [hsame]
    · rwa [hmarked]
  rcases hcases with ⟨k', -, td, ssrcInfo, groups, ids, -, hinfos, rfl⟩ | ⟨-, rfl⟩
  · by_cases hk : k' = k
    · subst hk
      rw [ParseState.media_update]
      exact ht.parseSsrcInfo hline hinfos
    · rw [ParseState.media_update_of_ne hk]
      exact ht
  · exact ht

theorem lacks_run (h : Lacks n (s.media k).ssrcInfo) (hlines : ∀ line ∈ lines, Elsewhere n line)
    (hok : lines.foldlM ParseState.parseLine s = .ok s') : Lacks n (s'.media k).ssrcInfo :=
  ExceptFolds.invariant_of_ok (I := fun s => Lacks n (s.media k).ssrcInfo)
    (fun line hline _ _ hstep hs => lacks_parseLine hs (hlines line hline) hstep) h hok

theorem elsewhere_of_track (htrack : Readable track) (hn : n ∉ track.ssrcs) (h : line ∈ trackLines track) : Elsewhere n line := by
  rw [trackLines_eq] at h
  rcases List.mem_append.mp h with h | h
  · obtain ⟨group, hgroup, rfl⟩ := List.mem_map.mp h
    exact .inl (not_found_ssrc_addSsrcGroupLine (mem_printedGroups.mp hgroup).2 (htrack.groups group hgroup).colon)
  · obtain ⟨ssrc, hssrc, h⟩ := List.mem_flatMap.mp h
    obtain ⟨attr, hattr, value, hvalue, rfl⟩ := mem_sourceLines h
    refine .inr ⟨ssrc, ?_, attr, hattr, value, (htrack.named.not_mem_value hvalue).1, rfl⟩
    rintro rfl
    exact hn hssrc

/-- A source of a track is not one of the tracks beside it. -/
theorem not_mem_others {pre post : List StreamParams} (h : ((pre ++ track :: post).flatMap (·.ssrcs)).Nodup) (hn : n ∈ track.ssrcs) :
    ∀ other ∈ pre ++ post, n ∉ other.ssrcs := by
  rw [List.flatMap_append, List.flatMap_cons] at h
  obtain ⟨-, hlater, hdisjoint⟩ := List.nodup_append.mp h
  intro other hother hmem
  rcases List.mem_append.mp hother with hother | hother
  · exact hdisjoint n (List.mem_flatMap.mpr ⟨other, hother, hmem⟩) n (List.mem_append_left _ hn) rfl
  · exact (List.nodup_append.mp hlater).2.2 n hn n (List.mem_flatMap.mpr ⟨other, hother, hmem⟩) rfl

/-- A line of the sources with the pattern of a medium ends the medium: no other is read until the
next one starts. -/
theorem off_of_medium (hc : content.Proper) (hline : line ∈ buildSsrc content) (hmedium : found line "m=" = true)
    (hok : s.parseLine line = .ok s') (k : MediaType) : s'.mediaType ≠ k.mid.toList ∧ s'.media k = s.media k := by
  obtain ⟨t, hmedia, hcases⟩ := ParseState.parseLine_cases hok
  have hstart : "a=ssrc".toList <+: line := by
    rcases aside_buildSsrc hline with hnot | hstart
    · rw [hmedium] at hnot
      cases hnot
    · exact hstart
  obtain ⟨hsame, htype⟩ := ParseState.parseMedia_misread hstart (not_found_bundle_buildSsrc hc hline) hmedium hmedia
  rcases hcases with ⟨k', hk', -⟩ | ⟨-, rfl⟩
  · exact absurd hk' (htype k')
  · exact ⟨htype k, hsame k⟩

theorem media_of_off (hlines : ∀ line ∈ lines, line ∈ buildSsrc content) (hoff : s.mediaType ≠ k.mid.toList)
    (hok : lines.foldlM ParseState.parseLine s = .ok s') : s'.media k = s.media k := by
  have hkeep := ExceptFolds.invariant_of_ok (I := fun t => t.mediaType ≠ k.mid.toList ∧ t.media k = s.media k)
    (fun line hline t t' hstep hI => ?_) ⟨hoff, rfl⟩ hok
  · exact hkeep.2
  · obtain ⟨htype, hsame⟩ := ParseState.parseLine_aside (aside_buildSsrc (hlines line hline)) hI.1 hstep
    exact ⟨htype, hsame.trans hI.2⟩

/-- If the semantics of a group has the pattern of a medium, the track is lost. -/
theorem lacks_of_medium (hc : content.Proper) (ht : PlainTransport (desc.getTransportInfo content.mid))
    (hv : ValidTransport (desc.getTransportInfo content.mid)) (htrack : track ∈ content.streams) (hgroup : group ∈ printedGroups track)
    (hmedium : found group.semantics.toList "m=" = true) (hn : n ∈ track.ssrcs) (hs : Lacks n (s.media k).ssrcInfo)
    (hok : (sideLines desc content ++ (buildSsrc content ++ buildCandidates content)).foldlM ParseState.parseLine s = .ok s') :
    Lacks n (s'.media k).ssrcInfo := by
  obtain ⟨pre, post, hstreams⟩ := List.append_of_mem htrack
  obtain ⟨groups, groups', hprinted⟩ := List.append_of_mem hgroup
  have hread := hc.readable track htrack
  have hne := (mem_printedGroups.mp hgroup).2
  have hothers : ∀ other ∈ pre ++ post, n ∉ other.ssrcs := not_mem_others (hstreams ▸ hc.ssrcs) hn
  have hside : ∀ line ∈ sideLines desc content ++ buildCandidates content, Elsewhere n line := fun line hline =>
    .inl (side_of_mem hc ht hv hline).ssrc
  have htracks : ∀ line ∈ (pre ++ post).flatMap trackLines, Elsewhere n line := by
    intro line hline
    obtain ⟨other, hother, hline⟩ := List.mem_flatMap.mp hline
    refine elsewhere_of_track (hc.readable other ?_) (hothers other hother) hline
    rw [hstreams]
    rcases List.mem_append.mp hother with hother | hother
    · exact List.mem_append_left _ hother
    · exact List.mem_append_right _ (List.mem_cons_of_mem track hother)
  have hgroups : ∀ g ∈ printedGroups track, Elsewhere n (addSsrcGroupLine g) := fun g hg =>
    .inl (not_found_ssrc_addSsrcGroupLine (mem_printedGroups.mp hg).2 (hread.groups g hg).colon)
  have hlines : sideLines desc content ++ (buildSsrc content ++ buildCandidates content) =
      (sideLines desc content ++ (pre.flatMap trackLines ++ groups.map addSsrcGroupLine)) ++ (addSsrcGroupLine group ::
        ((groups'.map addSsrcGroupLine ++ track.ssrcs.flatMap (sourceLines track)) ++
          (post.flatMap trackLines ++ buildCandidates content))) := by
    rw [buildSsrc, hstreams, List.flatMap_append, List.flatMap_cons, trackLines_eq, groupLines_eq, hprinted, List.map_append,
      List.map_cons]
    simp only [List.append_assoc, List.cons_append]
  rw [hlines] at hok
  obtain ⟨s₁, hbefore, hok⟩ := ExceptFolds.foldlM_append_ok hok
  obtain ⟨s₂, hstep, hok⟩ := ExceptFolds.foldlM_cons_eq_ok hok
  obtain ⟨s₃, hlost, hafter⟩ := ExceptFolds.foldlM_append_ok hok
  have hmemtrack : ∀ line ∈ trackLines track, line ∈ buildSsrc content := fun line hline =>
    List.mem_flatMap.mpr ⟨track, htrack, hline⟩
  have hgroupline : addSsrcGroupLine group ∈ buildSsrc content := by
    refine hmemtrack _ ?_
    rw [trackLines_eq, groupLines_eq]
    exact List.mem_append_left _ (List.mem_map_of_mem hgroup)
  have h₁ : Lacks n (s₁.media k).ssrcInfo := by
    refine lacks_run hs (fun line hline => ?_) hbefore
    rcases List.mem_append.mp hline with hline | hline
    · exact hside line (List.mem_append_left _ hline)
    · rcases List.mem_append.mp hline with hline | hline
      · refine htracks line ?_
        rw [List.flatMap_append]
        exact List.mem_append_left _ hline
      · obtain ⟨g, hg, rfl⟩ := List.mem_map.mp hline
        refine hgroups g ?_
        rw [hprinted]
        exact List.mem_append_left _ hg
  have hmarked : found (addSsrcGroupLine group) "m=" = true := by
    rw [found_marker_addSsrcGroupLine hne (by decide)]
    exact hmedium
  obtain ⟨htype, hsame⟩ := off_of_medium hc hgroupline hmarked hstep k
  have hrest : ∀ line ∈ groups'.map addSsrcGroupLine ++ track.ssrcs.flatMap (sourceLines track), line ∈ buildSsrc content := by
    intro line hline
    refine hmemtrack line ?_
    rw [trackLines_eq, groupLines_eq, hprinted, List.map_append, List.map_cons]
    simp only [List.mem_append, List.mem_cons] at hline ⊢
    rcases hline with hline | hline
    · exact .inl (.inr (.inr hline))
    · exact .inr hline
  have h₃ : Lacks n (s₃.media k).ssrcInfo := by
    rw [media_of_off hrest htype hlost, hsame]
    exact h₁
  refine lacks_run h₃ (fun line hline => ?_) hafter
  rcases List.mem_append.mp hline with hline | hline
  · refine htracks line ?_
    rw [List.flatMap_append]
    exact List.mem_append_right _ hline
  · exact hside line (List.mem_append_right _ hline)

end Lost

section Legible
variable (hc : content.Proper) (ht : PlainTransport (desc.getTransportInfo content.mid))
  (hv : ValidTransport (desc.getTransportInfo content.mid))

theorem unmarked_of_transportMarkers {text : Text} (hmedium : found text "m=" = false)
    (h : ∀ marker ∈ transportMarkers, found text marker = false) : Unmarked text := by
  intro marker hmarker
  rcases List.mem_cons.mp hmarker with rfl | hmarker
  · exact hmedium
  · exact h marker hmarker

/-- Every text of a track has a line of its own. -/
theorem exists_line_of_text (hc : content.Proper) (htrack : track ∈ content.streams) {text : String}
    (h : text ∈ [track.id, track.streamId, track.cname]) :
    Word text ∧ ∃ ssrc, ∃ attr ∈ attributes, addSsrcLine ssrc attr.toList text.toList ∈ buildSsrc content := by
  obtain ⟨ssrc, ssrcs, hssrcs⟩ := List.exists_cons_of_ne_nil (hc.sources track htrack)
  have hnamed := (hc.readable track htrack).named
  have hline {line : Text} (hmem : line ∈ sourceLines track ssrc) : line ∈ buildSsrc content := by
    refine List.mem_flatMap.mpr ⟨track, htrack, ?_⟩
    rw [trackLines_eq, hssrcs, List.flatMap_cons]
    exact List.mem_append_right _ (List.mem_append_left _ hmem)
  simp only [List.mem_cons, List.not_mem_nil, or_false] at h
  rcases h with rfl | rfl | rfl
  · exact ⟨hnamed.id, ssrc, "lable", by decide, hline (by simp [sourceLines])⟩
  · exact ⟨hnamed.streamId, ssrc, "mslabel", by decide, hline (by simp [sourceLines])⟩
  · exact ⟨hnamed.cname, ssrc, "cname", by decide, hline (by simp [sourceLines])⟩

theorem groupLine_mem (htrack : track ∈ content.streams) (hgroup : group ∈ printedGroups track) :
    addSsrcGroupLine group ∈ buildSsrc content := by
  refine List.mem_flatMap.mpr ⟨track, htrack, ?_⟩
  rw [trackLines_eq, groupLines_eq]
  exact List.mem_append_left _ (List.mem_map_of_mem hgroup)

/-- The lines of the sources and of the candidates keep a credential that has a blank. -/
theorem spaced_of_line (hc : content.Proper) {td td' : TransportDescription}
    (htexts : ∀ track ∈ content.streams, ∀ text ∈ [track.id, track.streamId, track.cname], Unmarked text.toList)
    (hline : line ∈ buildSsrc content ∨ line ∈ buildCandidates content) (hok : parseTransportInfo td line = .ok td') (h : Spaced td) :
    Spaced td' := by
  rcases hline with hline | hline
  · obtain ⟨track, htrack, hcases⟩ := mem_buildSsrc hline
    rcases hcases with ⟨group, hgroup, rfl⟩ | ⟨ssrc, -, attr, hattr, value, hvalue, rfl⟩
    · rcases parseTransportInfo_group ((hc.readable track htrack).groups group hgroup) (mem_printedGroups.mp hgroup).2 hok with hsame | hnew
      · rwa [hsame.1]
      · exact hnew
    · have hunmarked : Unmarked (addSsrcLine ssrc attr.toList value) := by
        intro marker hmarker
        rw [found_marker_addSsrcLine hattr hmarker]
        exact not_found_sourceTexts hmarker (fun text htext => htexts track htrack text htext marker hmarker) hvalue
      rw [parseTransportInfo_unmarked hunmarked] at hok
      exact Except.ok.inj hok ▸ h
  · rw [parseTransportInfo_unmarked (mem_buildCandidates hc.candidates hline).1.unmarked] at hok
    exact Except.ok.inj hok ▸ h

include hc ht hv

/-- If the credentials and the sources of a content came back, its texts have no pattern of a line. -/
theorem legible_of_run (hs : (s.media content.kind.type).ssrcInfo = [])
    (hok : (desc.contentLines dtlsOn content).foldlM ParseState.parseLine s = .ok s')
    (htd : ¬ Spaced (s'.media content.kind.type).td)
    (hsources : ∀ track ∈ content.streams, ∀ n ∈ track.ssrcs, ¬ Lacks n (s'.media content.kind.type).ssrcInfo) : content.Legible := by
  rw [contentLines_eq, ExceptFolds.foldlM_cons_ok ParseState.parseLine_mediaLine] at hok
  have hinlines {line : Text} (h : line ∈ buildSsrc content) :
      line ∈ sideLines desc content ++ (buildSsrc content ++ buildCandidates content) :=
    List.mem_append_right _ (List.mem_append_left _ h)
  have htextmedium : ∀ track ∈ content.streams, ∀ text ∈ [track.id, track.streamId, track.cname],
      found text.toList "m=" = false := by
    intro track htrack text htext
    obtain ⟨hword, ssrc, attr, hattr, hline⟩ := exists_line_of_text hc htrack htext
    obtain ⟨t, t', hstep⟩ := ExceptFolds.step_ok_of_mem (hinlines hline) hok
    refine Bool.eq_false_iff.mpr fun hmedium => ?_
    exact parseLine_of_medium hattr hword (not_found_bundle_buildSsrc hc hline) hmedium hstep
  have hgroupmedium : ∀ track ∈ content.streams, ∀ group ∈ printedGroups track, found group.semantics.toList "m=" = false := by
    intro track htrack group hgroup
    refine Bool.eq_false_iff.mpr fun hmedium => ?_
    obtain ⟨n, ssrcs, hn⟩ := List.exists_cons_of_ne_nil (hc.sources track htrack)
    have hmem : n ∈ track.ssrcs := by
      rw [hn]
      exact List.mem_cons_self
    have hstart : Lacks n ((s.enter content.kind.type).media content.kind.type).ssrcInfo := by
      rw [ParseState.media_enter, hs]
      simp [Lacks]
    exact hsources track htrack n hmem (lacks_of_medium hc ht hv htrack hgroup hmedium hmem hstart hok)
  have hmedium : ∀ line ∈ sideLines desc content ++ (buildSsrc content ++ buildCandidates content), found line "m=" = false := by
    intro line hline
    rcases List.mem_append.mp hline with hline | hline
    · exact (side_of_mem hc ht hv (List.mem_append_left _ hline)).medium
    · rcases List.mem_append.mp hline with hline | hline
      · obtain ⟨track, htrack, hline⟩ := mem_buildSsrc hline
        rcases hline with ⟨group, hgroup, rfl⟩ | ⟨ssrc, -, attr, hattr, value, hvalue, rfl⟩
        · rw [found_marker_addSsrcGroupLine (mem_printedGroups.mp hgroup).2 (by decide)]
          exact hgroupmedium track htrack group hgroup
        · rw [found_marker_addSsrcLine hattr (by decide)]
          exact not_found_sourceTexts (by decide) (htextmedium track htrack) hvalue
      · exact (side_of_mem hc ht hv (List.mem_append_right _ hline)).medium
  have hread := (ParseState.read_of_ok ParseState.mediaType_enter hmedium hok).transport
  have htexts : ∀ track ∈ content.streams, ∀ text ∈ [track.id, track.streamId, track.cname], Unmarked text.toList := by
    intro track htrack text htext
    obtain ⟨hword, ssrc, attr, hattr, hline⟩ := exists_line_of_text hc htrack htext
    obtain ⟨td, td', hstep⟩ := ExceptFolds.step_ok_of_mem (hinlines hline) hread
    exact unmarked_of_transportMarkers (htextmedium track htrack text htext) (parseTransportInfo_source hattr hword hstep)
  refine ⟨htexts, fun track htrack group hgroup => ?_⟩
  refine unmarked_of_transportMarkers (hgroupmedium track htrack group hgroup) ?_
  obtain ⟨before, after, hbuild⟩ := List.append_of_mem (groupLine_mem htrack hgroup)
  rw [hbuild, List.append_assoc, List.cons_append, ← List.append_assoc] at hread
  obtain ⟨td₁, -, hread⟩ := ExceptFolds.foldlM_append_ok hread
  obtain ⟨td₂, hstep, hread⟩ := ExceptFolds.foldlM_cons_eq_ok hread
  rcases parseTransportInfo_group ((hc.readable track htrack).groups group hgroup) (mem_printedGroups.mp hgroup).2 hstep with h | h
  · exact h.2
  · refine absurd ?_ htd
    refine ExceptFolds.invariant_of_ok (fun line hline td td' hstep => spaced_of_line hc htexts ?_ hstep) h hread
    rcases List.mem_append.mp hline with hline | hline
    · refine .inl ?_
      rw [hbuild]
      exact List.mem_append_right _ (List.mem_cons_of_mem _ hline)
    · exact .inr hline

end Legible

section Descriptions

theorem valid_of_recovers {sdp : Text} (h : setRemoteSdp sdp = .ok remote) (hrec : desc.Recovers remote)
    (hmem : content ∈ desc.contents) : ValidTransport (desc.getTransportInfo content.mid) := by
  intro td htd fp hfp
  refine valid_transportOf h content.mid fp ?_
  rw [hrec.transports content hmem, SessionDescription.transportOf, htd]
  exact hfp

/-- The lines of contents of another medium leave it. -/
theorem media_of_others {contents : List MediaContentDescription} (hp : ∀ content ∈ contents, content.Proper)
    (ht : ∀ content ∈ contents, PlainTransport (desc.getTransportInfo content.mid))
    (hv : ∀ content ∈ contents, ValidTransport (desc.getTransportInfo content.mid)) (hk : ∀ content ∈ contents, content.kind.type ≠ k)
    (hok : (contents.flatMap (desc.contentLines dtlsOn)).foldlM ParseState.parseLine s = .ok s') : s'.media k = s.media k := by
  induction contents generalizing s with
  | nil =>
    obtain rfl := Except.ok.inj hok
    rfl
  | cons content contents ih =>
    rw [List.flatMap_cons] at hok
    obtain ⟨t, hfirst, hrest⟩ := ExceptFolds.foldlM_append_ok hok
    have hmem : content ∈ content :: contents := List.mem_cons_self
    have hlater := ih (fun c hc => hp c (List.mem_cons_of_mem _ hc)) (fun c hc => ht c (List.mem_cons_of_mem _ hc))
      (fun c hc => hv c (List.mem_cons_of_mem _ hc)) (fun c hc => hk c (List.mem_cons_of_mem _ hc)) hrest
    exact hlater.trans (media_of_other (hp content hmem) (ht content hmem) (hv content hmem) (hk content hmem) hfirst)

/-- A content has its medium for itself. -/
theorem exists_content_run (hp : desc.Proper) (hv : ∀ content ∈ desc.contents, ValidTransport (desc.getTransportInfo content.mid))
    (hmem : content ∈ desc.contents) (hok : (desc.lines dtlsOn).foldlM ParseState.parseLine {} = .ok s) :
    ∃ s₁ s₂, s₁.media content.kind.type = {} ∧ (desc.contentLines dtlsOn content).foldlM ParseState.parseLine s₁ = .ok s₂ ∧
      s.media content.kind.type = s₂.media content.kind.type := by
  obtain ⟨pre, post, heq⟩ := List.append_of_mem hmem
  have hkinds := hp.kinds
  rw [heq, List.map_append, List.map_cons] at hkinds
  obtain ⟨-, hlater, hdisjoint⟩ := List.nodup_append.mp hkinds
  have hpre : ∀ c ∈ pre, c.kind.type ≠ content.kind.type := fun c hc =>
    hdisjoint _ (List.mem_map_of_mem hc) _ List.mem_cons_self
  have hpost : ∀ c ∈ post, c.kind.type ≠ content.kind.type := fun c hc htype =>
    (List.nodup_cons.mp hlater).1 (htype ▸ List.mem_map_of_mem hc)
  have hin : ∀ c ∈ pre ++ post, c ∈ desc.contents := by
    intro c hc
    rw [heq]
    rcases List.mem_append.mp hc with hc | hc
    · exact List.mem_append_left _ hc
    · exact List.mem_append_right _ (List.mem_cons_of_mem _ hc)
  rw [lines_eq, ExceptFolds.foldlM_append_eq (foldlM_headerLines desc), heq, List.flatMap_append, List.flatMap_cons] at hok
  obtain ⟨s₁, hbefore, hok⟩ := ExceptFolds.foldlM_append_ok hok
  obtain ⟨s₂, hrun, hafter⟩ := ExceptFolds.foldlM_append_ok hok
  have hleave (contents : List MediaContentDescription) (hsub : ∀ c ∈ contents, c ∈ pre ++ post)
      (hk : ∀ c ∈ contents, c.kind.type ≠ content.kind.type) {t t' : ParseState}
      (hrun : (contents.flatMap (desc.contentLines dtlsOn)).foldlM ParseState.parseLine t = .ok t') :
      t'.media content.kind.type = t.media content.kind.type :=
    media_of_others (fun c hc => hp.contents c (hin c (hsub c hc))) (fun c hc => hp.transports c (hin c (hsub c hc)))
      (fun c hc => hv c (hin c (hsub c hc))) hk hrun
  refine ⟨s₁, s₂, ?_, hrun, hleave post (fun c hc => List.mem_append_right _ hc) hpost hafter⟩
  rw [hleave pre (fun c hc => List.mem_append_left _ hc) hpre hbefore]
  cases content.kind.type <;> rfl

theorem getContent_eq (hp : desc.Proper) (hmem : content ∈ desc.contents) : desc.getContent content.kind.type.mid = some content := by
  cases hget : desc.getContent content.kind.type.mid with
  | none => exact absurd rfl (kinds_of_getContent_none hget content hmem)
  | some c =>
    obtain ⟨hc, hkind⟩ := mem_of_getContent hget
    rw [List.inj_on_of_nodup_map hp.kinds hc hmem hkind]

theorem ssrcs_readTracks (k : MediaType) (tracks : List StreamParams) : (k.readTracks tracks).map (·.ssrcs) = tracks.map (·.ssrcs) := by
  cases k with
  | audio =>
    rw [MediaType.readTracks, List.map_map]
    rfl
  | video => rfl

/-- Every source of a track that came back was read. -/
theorem not_lacks_of_recovers (hp : desc.Proper) (hmem : content ∈ desc.contents) (hrec : desc.Recovers s.remoteDesc) :
    (s.media content.kind.type).existPushSource = true ∧
      ∀ track ∈ content.streams, ∀ n ∈ track.ssrcs, ¬ Lacks n (s.media content.kind.type).ssrcInfo := by
  have htracks := hrec.tracks content.kind.type
  rw [tracksOf_remoteDesc, SessionDescription.tracksOf, getContent_eq hp hmem, Option.map_some] at htracks
  split at htracks
  · rename_i hpushed
    refine ⟨hpushed, fun track htrack n hn hlacks => ?_⟩
    have hssrcs : (s.tracks content.kind.type).map (·.ssrcs) = content.streams.map (·.ssrcs) := by
      rw [← ssrcs_readTracks content.kind.type, Option.some.inj htracks, ssrcs_readTracks]
    have hcreated : (createTrackFromSsrcInfo (s.media content.kind.type).ssrcInfo).map (·.ssrcs) = content.streams.map (·.ssrcs) := by
      rw [← hssrcs]
      cases content.kind.type with
      | audio => rfl
      | video => exact (ssrcs_foldl_addGroup _ _).symm
    have hfound : track.ssrcs ∈ (createTrackFromSsrcInfo (s.media content.kind.type).ssrcInfo).map (·.ssrcs) := by
      rw [hcreated]
      exact List.mem_map_of_mem htrack
    obtain ⟨t, ht, heq⟩ := List.mem_map.mp hfound
    obtain ⟨info, hinfo, hid⟩ := ssrcId_of_mem ⟨t, ht, heq ▸ hn⟩
    exact hlacks info hinfo hid
  · cases htracks

theorem not_spaced_of_transportOf {td : TransportDescription} {mid : String} (ht : PlainTransport (desc.getTransportInfo mid))
    (hufrag : td.iceUfrag = (desc.transportOf mid).1) (hpwd : td.icePwd = (desc.transportOf mid).2.1) : ¬ Spaced td := by
  rw [Spaced, hufrag, hpwd, SessionDescription.transportOf]
  cases htd : desc.getTransportInfo mid with
  | none => decide
  | some info =>
    obtain ⟨hufragtext, hpwdtext⟩ := ht info htd
    exact not_or.mpr ⟨hufragtext.blank, hpwdtext.blank⟩

/-- A description that is read back has no pattern of a line in its texts, and no bundle. -/
theorem legible_of_roundTrips (hp : desc.Proper) (h : desc.RoundTrips dtlsOn) : desc.Legible := by
  obtain ⟨remote, hread, hrec⟩ := h
  have hv : ∀ content ∈ desc.contents, ValidTransport (desc.getTransportInfo content.mid) := fun content hmem =>
    valid_of_recovers hread hrec hmem
  rw [setRemoteSdp_toString (newline_lines hp hv)] at hread
  obtain ⟨s, hrun, hremote⟩ := ExceptFolds.bind_eq_ok hread
  obtain rfl := Except.ok.inj hremote
  have hgroups : s.groups = [] := by
    refine ExceptFolds.invariant_of_ok (I := fun s => s.groups = []) (fun line hline t t' hstep hI => ?_) rfl hrun
    rw [lines_eq] at hline
    refine (ParseState.groups_of_parseLine ?_ hstep).trans hI
    rcases List.mem_append.mp hline with hline | hline
    · exact ParseState.not_found_bundle (mem_headerLines hline).1
    · obtain ⟨content, hmem, hline⟩ := List.mem_flatMap.mp hline
      exact not_found_bundle_contentLines (hp.contents content hmem) (hp.transports content hmem) (hv content hmem) hline
  refine ⟨?_, hv, fun content hmem => ?_⟩
  · rw [← hrec.bundle]
    simp [SessionDescription.getGroupByName, ParseState.remoteDesc, hgroups]
  · obtain ⟨s₁, s₂, hfresh, hcontent, hsame⟩ := exists_content_run hp hv hmem hrun
    obtain ⟨hpushed, hsources⟩ := not_lacks_of_recovers hp hmem hrec
    have hsound := sound_of_run hrun
    have htransport := hrec.transports content hmem
    rw [MediaContentDescription.mid, transportOf_remoteDesc ((hsound content.kind.type).pushed hpushed)
      (ne_mid_of_other (hsound content.kind.type.other).mid)] at htransport
    rw [hsame] at hsources htransport
    refine legible_of_run (hp.contents content hmem) (hp.transports content hmem) (hv content hmem) (by rw [hfresh]) hcontent ?_ hsources
    exact not_spaced_of_transportOf (hp.transports content hmem) (congrArg Prod.fst htransport)
      (congrArg (fun transport => transport.2.1) htransport)

end Descriptions

/-- A description is read back from its text if and only if it has no bundle, its fingerprints are
valid and no text of its tracks and groups has a pattern of another line. -/
theorem roundTrips_iff_legible (desc : SessionDescription) (dtlsOn : Bool) (hp : desc.Proper) :
    desc.RoundTrips dtlsOn ↔ desc.Legible :=
  ⟨legible_of_roundTrips hp, fun hl => roundTrips_of_legible hp hl dtlsOn⟩

section Sample

def voice : MediaContentDescription where
  kind := .audio
  streams := [⟨"voice", [11], [], "xrtc", "live"⟩]

def picture : MediaContentDescription where
  kind := .video 102 103
  streams := [⟨"picture", [21, 22], [⟨"FID", [21, 22]⟩], "xrtc", "live"⟩]

def sampleTransport (mid : String) : TransportDescription where
  mid
  iceUfrag := "w/W3"
  icePwd := "l8PkVNNDw9de"
  identityFingerprint := some ⟨"sha-256", [160, 197]⟩

/-- A published stream with a voice and a picture. -/
def sample (contentGroups : List ContentGroup) : SessionDescription where
  contents := [voice, picture]
  contentGroups
  transportInfos := [sampleTransport "audio", sampleTransport "video"]

theorem voice_proper : voice.Proper where
  readable := by
    intro track htrack
    obtain rfl := List.mem_singleton.mp htrack
    exact ⟨⟨by decide, by decide, by decide⟩, by decide⟩
  ids := by decide
  ssrcs := by decide
  sources := by decide
  groups h := by cases h
  candidates := by simp [voice]

theorem picture_proper : picture.Proper where
  readable := by
    intro track htrack
    obtain rfl := List.mem_singleton.mp htrack
    exact ⟨⟨by decide, by decide, by decide⟩, by decide⟩
  ids := by decide
  ssrcs := by decide
  sources := by decide
  groups _ := by decide
  candidates := by simp [picture]

theorem sample_proper (contentGroups : List ContentGroup) : (sample contentGroups).Proper where
  kinds := by
    show ([voice, picture].map (·.kind.type)).Nodup
    decide
  contents := by
    intro content hcontent
    simp only [sample, List.mem_cons, List.not_mem_nil, or_false] at hcontent
    rcases hcontent with rfl | rfl
    · exact voice_proper
    · exact picture_proper
  transports := by
    intro content _ td htd
    have hmem : td ∈ [sampleTransport "audio", sampleTransport "video"] := List.mem_of_find?_eq_some htd
    have hplain : ∀ td ∈ [sampleTransport "audio", sampleTransport "video"], IceText td.iceUfrag ∧ IceText td.icePwd := by decide
    exact hplain td hmem

/-- Without a bundle it is read back as far as its texts are legible. -/
theorem roundTrips_iff_legible_sample : (sample []).Proper ∧ ((sample []).RoundTrips true ↔ (sample []).Legible) :=
  ⟨sample_proper [], roundTrips_iff_legible (sample []) true (sample_proper [])⟩

/-- The bundle is written as one line and looked for as another. -/
theorem bundle_not_recovered : (sample [⟨"BUNDLE", ["audio", "video"]⟩]).Proper ∧
    ¬ (sample [⟨"BUNDLE", ["audio", "video"]⟩]).RoundTrips true := by
  refine ⟨sample_proper _, fun h => ?_⟩
  have hbundle := (legible_of_roundTrips (sample_proper _) h).bundle
  revert hbundle
  decide

end Sample

end Sdp
end XrtcServer
