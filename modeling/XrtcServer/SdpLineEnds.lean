import XrtcServer.ExceptFolds
import XrtcServer.SdpText

/-! The ends of the lines of an offer. Where any line is ended by CRLF, the last character is
removed from every line. -/
namespace XrtcServer
namespace Sdp
variable {line : Text} {s : ParseState}

/-- How a line ends; the last one may have no end. -/
inductive LineEnd
  | lf
  | crlf
  | missing
  deriving DecidableEq

def LineEnd.text : LineEnd → Text
  | .lf => ['\n']
  | .crlf => ['\r', '\n']
  | .missing => []

/-- The ends of the lines of a text. -/
structure LineEnds where
  toList : List LineEnd
  terminated : .missing ∉ toList.dropLast

/-- Some lines are ended by CRLF and some are not. -/
def LineEnds.Mixed (ends : LineEnds) : Prop := .crlf ∈ ends.toList ∧ ∃ e ∈ ends.toList, e ≠ .crlf

/-- Lines without breaks in them, with these ends. -/
structure EndedLines (ends : LineEnds) where
  toList : List (Text × LineEnd)
  ended : toList.map Prod.snd = ends.toList
  clean : ∀ l ∈ toList, '\r' ∉ l.1 ∧ '\n' ∉ l.1

def sdpText (ls : List (Text × LineEnd)) : Text := ls.flatMap fun l => l.1 ++ l.2.text

/-- The same lines, each ended by LF. -/
def EndedLines.plain {ends : LineEnds} (ls : EndedLines ends) : List (Text × LineEnd) :=
  ls.toList.map fun l => (l.1, .lf)

/-- The result is the same as with LF after every line. -/
def EndedLines.Unchanged {ends : LineEnds} (ls : EndedLines ends) : Prop :=
  setRemoteSdp (sdpText ls.toList) = setRemoteSdp (sdpText ls.plain)

/-- There is a line with something in it. -/
def EndedLines.Filled {ends : LineEnds} (ls : EndedLines ends) : Prop := ∃ l ∈ ls.toList, l.1 ≠ []

section Fields
variable {ls : List (Text × LineEnd)}

/-- The field that a line comes to. -/
def fieldOf (l : Text × LineEnd) : List Text :=
  if l.2 = .crlf then [l.1 ++ ['\r']] else if l.1 = [] then [] else [l.1]

theorem tokenize_cons_self (c : Char) (y : Text) : tokenize (c :: y) c = tokenize y c := by
  have hsplit := split_append_cons (x := []) (c := c) List.not_mem_nil y
  rw [List.nil_append] at hsplit
  rw [tokenize, hsplit]
  rfl

/-- A line with an end, and the rest. -/
theorem tokenize_line {l : Text} (hl : '\n' ∉ l) (y : Text) :
    tokenize (l ++ '\n' :: y) '\n' = (if l = [] then [] else [l]) ++ tokenize y '\n' := by
  split
  · rename_i hnil
    rw [hnil]
    exact tokenize_cons_self '\n' y
  · rename_i hne
    exact tokenize_append_cons hl hne y

theorem tokenize_sdpText (hclean : ∀ l ∈ ls, '\r' ∉ l.1 ∧ '\n' ∉ l.1)
    (hends : .missing ∉ (ls.map Prod.snd).dropLast) : tokenize (sdpText ls) '\n' = ls.flatMap fieldOf := by
  induction ls with
  | nil => rfl
  | cons l ls ih =>
    obtain ⟨line, e⟩ := l
    have hline : '\n' ∉ line := (hclean _ List.mem_cons_self).2
    have hrest : tokenize (sdpText ls) '\n' = ls.flatMap fieldOf := by
      refine ih (fun l hl => hclean l (List.mem_cons_of_mem _ hl)) fun hmem => hends ?_
      cases ls with
      | nil => cases hmem
      | cons l' ls => exact List.mem_cons_of_mem _ hmem
    rw [List.flatMap_cons, ← hrest, sdpText, List.flatMap_cons, ← sdpText]
    cases e with
    | lf =>
      have hassoc : (line ++ LineEnd.lf.text) ++ sdpText ls = line ++ '\n' :: sdpText ls := by simp [LineEnd.text]
      rw [hassoc, tokenize_line hline]
      rfl
    | crlf =>
      have hassoc : (line ++ LineEnd.crlf.text) ++ sdpText ls = (line ++ ['\r']) ++ '\n' :: sdpText ls := by
        simp [LineEnd.text]
      rw [hassoc, tokenize_line (by simpa using hline), if_neg (by simp)]
      rfl
    | missing =>
      cases ls with
      | nil =>
        show tokenize ((line ++ []) ++ []) '\n' = (if line = [] then [] else [line]) ++ []
        rw [List.append_nil, List.append_nil, List.append_nil]
        split
        · rename_i hnil
          rw [hnil]
          rfl
        · rename_i hne
          exact tokenize_of_not_mem hline hne
      | cons l' ls => exact absurd List.mem_cons_self hends

theorem found_sdpText (hclean : ∀ l ∈ ls, '\r' ∉ l.1 ∧ '\n' ∉ l.1) :
    found (sdpText ls) "\r\n" = true ↔ .crlf ∈ ls.map Prod.snd := by
  constructor
  · intro h
    by_contra hnot
    have hcr : '\r' ∉ sdpText ls := by
      intro hmem
      obtain ⟨⟨line, e⟩, hl, hmem⟩ := List.mem_flatMap.mp hmem
      rcases List.mem_append.mp hmem with hmem | hmem
      · exact (hclean _ hl).1 hmem
      · cases e with
        | lf => simp [LineEnd.text] at hmem
        | crlf => exact hnot (List.mem_map_of_mem hl)
        | missing => cases hmem
    rw [found_of_not_mem (by decide) hcr] at h
    cases h
  · intro h
    obtain ⟨⟨line, e⟩, hl, rfl⟩ := List.mem_map.mp h
    obtain ⟨pre, post, rfl⟩ := List.append_of_mem hl
    refine found_iff.mpr ⟨sdpText pre ++ line, sdpText post, ?_⟩
    simp [sdpText, LineEnd.text]

/-- What is read of a line where the last characters are removed. -/
def strippedOf (l : Text × LineEnd) : List Text :=
  if l.2 = .crlf then [l.1] else if l.1 = [] then [] else [l.1.dropLast]

theorem dropLast_fieldOf (l : Text × LineEnd) : (fieldOf l).map List.dropLast = strippedOf l := by
  unfold fieldOf strippedOf
  split
  · rw [List.map_singleton, List.dropLast_concat]
  · split
    · rfl
    · rfl

/-- With a CRLF anywhere the lines with another end lose their last character. -/
theorem readLines_of_crlf (hclean : ∀ l ∈ ls, '\r' ∉ l.1 ∧ '\n' ∉ l.1)
    (hends : .missing ∉ (ls.map Prod.snd).dropLast) (hcrlf : .crlf ∈ ls.map Prod.snd) :
    readLines (sdpText ls) = ls.flatMap strippedOf := by
  rw [readLines, tokenize_sdpText hclean hends, (found_sdpText hclean).mpr hcrlf, List.map_flatMap]
  exact List.flatMap_congr fun l _ => dropLast_fieldOf l

/-- Without any the lines are read as they are. -/
theorem readLines_of_not_crlf (hclean : ∀ l ∈ ls, '\r' ∉ l.1 ∧ '\n' ∉ l.1)
    (hends : .missing ∉ (ls.map Prod.snd).dropLast) (hcrlf : .crlf ∉ ls.map Prod.snd) :
    readLines (sdpText ls) = (ls.map Prod.fst).filter (· ≠ []) := by
  have hfound : found (sdpText ls) "\r\n" = false :=
    Bool.eq_false_iff.mpr fun h => hcrlf ((found_sdpText hclean).mp h)
  rw [readLines, tokenize_sdpText hclean hends, hfound]
  clear hclean hends hfound
  induction ls with
  | nil => rfl
  | cons l ls ih =>
    obtain ⟨hne, hrest⟩ := not_or.mp (List.mem_cons.not.mp hcrlf)
    rw [List.flatMap_cons, List.map_append, ih hrest, List.map_cons, List.filter_cons, fieldOf,
      if_neg (Ne.symm hne)]
    by_cases hnil : l.1 = []
    · simp [hnil]
    · simp [hnil]

end Fields

section Ends
variable {ends : LineEnds} (ls : EndedLines ends)

theorem EndedLines.terminated : .missing ∉ (ls.toList.map Prod.snd).dropLast := by
  rw [ls.ended]
  exact ends.terminated

theorem EndedLines.readLines_plain :
    readLines (sdpText ls.plain) = (ls.toList.map Prod.fst).filter (· ≠ []) := by
  have hends : ls.plain.map Prod.snd = ls.toList.map fun _ => .lf := by
    rw [plain, List.map_map]
    rfl
  have hlines : ls.plain.map Prod.fst = ls.toList.map Prod.fst := by
    rw [plain, List.map_map]
    rfl
  have hlf : ∀ e ≠ LineEnd.lf, e ∉ ls.plain.map Prod.snd := by
    intro e hne hmem
    rw [hends] at hmem
    obtain ⟨l, -, rfl⟩ := List.mem_map.mp hmem
    exact hne rfl
  rw [readLines_of_not_crlf ?_ (fun hmem => hlf _ (by decide) (List.mem_of_mem_dropLast hmem))
    (hlf _ (by decide)), hlines]
  intro l hl
  obtain ⟨l', hl', rfl⟩ := List.mem_map.mp hl
  exact ls.clean l' hl'

/-- The result depends on the lines that are read. -/
theorem setRemoteSdp_readLines (sdp : Text) :
    setRemoteSdp sdp = if readLines sdp = [] then .error .error
      else (readLines sdp).foldlM ParseState.parseLine {} >>= fun s => .ok s.remoteDesc := by
  have hnil : tokenize sdp '\n' = [] ↔ readLines sdp = [] := List.map_eq_nil_iff.symm
  rw [setRemoteSdp_eq]
  simp only [hnil]

theorem found_of_short (h : line.length ≤ 1) {pattern : String} (hp : 2 ≤ pattern.toList.length) :
    found line pattern = false := by
  refine found_eq_false_iff.mpr fun hinfix => ?_
  have hle := hinfix.length_le
  omega

/-- A line of one character at most is passed over. -/
theorem parseLine_of_short (h : line.length ≤ 1) (s : ParseState) : s.parseLine line = .ok s := by
  have hmedia : s.parseMedia line = .ok s := by
    rw [ParseState.parseMedia, found_of_short h (by decide), found_of_short h (by decide)]
    rfl
  have hsource (media : MediaState) : ParseState.parseSource media line = .ok media := by
    have htransport : parseTransportInfo media.td line = .ok media.td := by
      rw [parseTransportInfo, found_of_short h (by decide), found_of_short h (by decide),
        found_of_short h (by decide)]
      rfl
    have hssrc : parseSsrcInfo media.ssrcInfo line = .ok media.ssrcInfo := by
      rw [parseSsrcInfo, found_of_short h (by decide)]
      rfl
    rw [ParseState.parseSource, htransport, ExceptFolds.ok_bind, hssrc, ExceptFolds.ok_bind]
    rfl
  have hgroup : parseSsrcGroupInfo s.videoSsrcGroups line = .ok s.videoSsrcGroups := by
    rw [parseSsrcGroupInfo, found_of_short h (by decide)]
    rfl
  have hcodec (codecId : ℤ) {pattern : String} (hp : 2 ≤ pattern.toList.length) (patterns : List String) :
      parseCodecInfo codecId (pattern :: patterns) line = .ok codecId := by
    rw [parseCodecInfo, List.all_cons, found_of_short h hp]
    split <;> rfl
  rw [ParseState.parseLine, hmedia, ExceptFolds.ok_bind, ParseState.parseAttribute]
  split
  · rw [hsource, ExceptFolds.ok_bind]
    rfl
  · split
    · rw [hsource, ExceptFolds.ok_bind, hgroup, ExceptFolds.ok_bind, parseFmtpInfo,
        hcodec _ (by decide), ExceptFolds.ok_bind]
      dsimp only
      split
      · rw [parseRtpmapInfo, hcodec _ (by decide)]
        rfl
      · rfl
    · rfl

/-- Empty lines may be left out. -/
theorem foldlM_filter (lines : List Text) (s : ParseState) :
    (lines.filter (· ≠ [])).foldlM ParseState.parseLine s = lines.foldlM ParseState.parseLine s := by
  induction lines generalizing s with
  | nil => rfl
  | cons line lines ih =>
    by_cases hnil : line = []
    · rw [List.filter_cons_of_neg (by simpa using hnil), ih,
        ExceptFolds.foldlM_cons_ok (parseLine_of_short (by simp [hnil]) s)]
    · rw [List.filter_cons_of_pos (by simpa using hnil), List.foldlM_cons, List.foldlM_cons]
      exact congrArg _ (funext fun s => ih s)

/-- Without a CRLF nothing is lost. -/
theorem EndedLines.unchanged_of_not_crlf (h : .crlf ∉ ends.toList) : ls.Unchanged := by
  rw [← ls.ended] at h
  rw [Unchanged, setRemoteSdp_readLines, setRemoteSdp_readLines, ls.readLines_plain,
    readLines_of_not_crlf ls.clean ls.terminated h]

/-- With a CRLF everywhere the lines are read, the empty ones too. -/
theorem EndedLines.readLines_of_all_crlf (h : ∀ e ∈ ends.toList, e = .crlf) (hne : ends.toList ≠ []) :
    readLines (sdpText ls.toList) = ls.toList.map Prod.fst := by
  have hmem : .crlf ∈ ls.toList.map Prod.snd := by
    obtain ⟨e, rest, hcons⟩ := List.exists_cons_of_ne_nil hne
    rw [ls.ended, hcons, h e (hcons ▸ List.mem_cons_self)]
    exact List.mem_cons_self
  have hstripped : ∀ l ∈ ls.toList, strippedOf l = [l.1] := fun l hl =>
    if_pos (h l.2 (ls.ended ▸ List.mem_map_of_mem hl))
  rw [readLines_of_crlf ls.clean ls.terminated hmem, List.flatMap_congr hstripped,
    List.map_eq_flatMap]

theorem EndedLines.unchanged_of_all_crlf (h : ∀ e ∈ ends.toList, e = .crlf) (hfilled : ls.Filled) :
    ls.Unchanged := by
  obtain ⟨l, hl, hne⟩ := hfilled
  have hends : ends.toList ≠ [] := by
    rw [← ls.ended]
    exact List.ne_nil_of_mem (List.mem_map_of_mem hl)
  have hmem : l.1 ∈ ls.toList.map Prod.fst := List.mem_map_of_mem hl
  have hfilter : l.1 ∈ (ls.toList.map Prod.fst).filter (· ≠ []) :=
    List.mem_filter.mpr ⟨hmem, by simpa using hne⟩
  rw [Unchanged, setRemoteSdp_readLines, setRemoteSdp_readLines, ls.readLines_plain,
    ls.readLines_of_all_crlf h hends, if_neg (List.ne_nil_of_mem hmem),
    if_neg (List.ne_nil_of_mem hfilter), foldlM_filter]

/-- If all that is read has one character at most, the text is accepted with nothing in it. -/
theorem setRemoteSdp_of_short {sdp : Text} (hne : readLines sdp ≠ []) (h : ∀ line ∈ readLines sdp, line.length ≤ 1) :
    setRemoteSdp sdp = .ok ({} : ParseState).remoteDesc := by
  rw [setRemoteSdp_readLines, if_neg hne, ExceptFolds.foldlM_skip fun line hline => parseLine_of_short (h line hline) {}]
  rfl

/-- A text of empty lines is accepted if one of them is ended by CRLF, and only then. -/
theorem EndedLines.unchanged_iff_of_empty (h : ¬ ls.Filled) : ls.Unchanged ↔ .crlf ∉ ends.toList := by
  refine ⟨fun hsame hcrlf => ?_, ls.unchanged_of_not_crlf⟩
  have hempty : ∀ l ∈ ls.toList, l.1 = [] := fun l hl => by
    by_contra hne
    exact h ⟨l, hl, hne⟩
  rw [← ls.ended] at hcrlf
  obtain ⟨l, hl, hl'⟩ := List.mem_map.mp hcrlf
  have hread := readLines_of_crlf ls.clean ls.terminated hcrlf
  have hline : l.1 ∈ readLines (sdpText ls.toList) := by
    rw [hread]
    exact List.mem_flatMap.mpr ⟨l, hl, by simp [strippedOf, hl']⟩
  have haccepted : setRemoteSdp (sdpText ls.toList) = .ok ({} : ParseState).remoteDesc := by
    refine setRemoteSdp_of_short (List.ne_nil_of_mem hline) fun line hmem => ?_
    rw [hread] at hmem
    obtain ⟨l', hmem', hmem⟩ := List.mem_flatMap.mp hmem
    simp only [strippedOf, hempty l' hmem', if_true, List.mem_ite_nil_right] at hmem
    rw [List.mem_singleton.mp hmem.2]
    exact Nat.zero_le _
  have hplain : readLines (sdpText ls.plain) = [] := by
    rw [ls.readLines_plain, List.filter_eq_nil_iff]
    intro line hmem
    obtain ⟨l', hmem', rfl⟩ := List.mem_map.mp hmem
    simp [hempty l' hmem']
  rw [Unchanged, haccepted, setRemoteSdp_readLines, if_pos hplain] at hsame
  cases hsame

/-- Where some lines are ended by CRLF and others not: a line of a medium that is cut short. -/
def cutLines (ends : LineEnds) : EndedLines ends where
  toList := ends.toList.map fun e => (if e = .crlf then ['x'] else ['m', '='], e)
  ended := by
    rw [List.map_map]
    exact List.map_id _
  clean l hl := by
    obtain ⟨e, -, rfl⟩ := List.mem_map.mp hl
    split
    · exact (by decide : '\r' ∉ ['x'] ∧ '\n' ∉ ['x'])
    · exact (by decide : '\r' ∉ ['m', '='] ∧ '\n' ∉ ['m', '='])

theorem changed_of_mixed (h : ends.Mixed) : (cutLines ends).Filled ∧ ¬ (cutLines ends).Unchanged := by
  obtain ⟨hcrlf, e, he, hne⟩ := h
  have hcut : (['m', '='], e) ∈ (cutLines ends).toList :=
    List.mem_map.mpr ⟨e, he, by rw [if_neg hne]⟩
  have hkept : (['x'], LineEnd.crlf) ∈ (cutLines ends).toList := List.mem_map.mpr ⟨.crlf, hcrlf, rfl⟩
  refine ⟨⟨_, hcut, by simp⟩, fun hsame => ?_⟩
  have hread := readLines_of_crlf (cutLines ends).clean (cutLines ends).terminated
    (by rw [(cutLines ends).ended]; exact hcrlf)
  have hline : ['x'] ∈ readLines (sdpText (cutLines ends).toList) := by
    rw [hread]
    exact List.mem_flatMap.mpr ⟨_, hkept, List.mem_singleton_self _⟩
  have haccepted : setRemoteSdp (sdpText (cutLines ends).toList) = .ok ({} : ParseState).remoteDesc := by
    refine setRemoteSdp_of_short (List.ne_nil_of_mem hline) fun line hmem => ?_
    rw [hread] at hmem
    obtain ⟨l, hl, hmem⟩ := List.mem_flatMap.mp hmem
    obtain ⟨e', -, rfl⟩ := List.mem_map.mp hl
    unfold strippedOf at hmem
    dsimp only at hmem
    split at hmem
    · rw [List.mem_singleton.mp hmem]
      exact le_rfl
    · rw [if_neg (List.cons_ne_nil _ _), List.mem_singleton] at hmem
      rw [hmem]
      exact le_rfl
  rw [EndedLines.Unchanged, haccepted] at hsame
  obtain ⟨s, hrun, -⟩ := setRemoteSdp_ok hsame.symm
  -- The line as it is stops the run, in whatever state it comes.
  have hmem : ['m', '='] ∈ readLines (sdpText (cutLines ends).plain) := by
    rw [EndedLines.readLines_plain]
    exact List.mem_filter.mpr ⟨List.mem_map.mpr ⟨_, hcut, rfl⟩, by decide⟩
  obtain ⟨t, t', hline⟩ := ExceptFolds.step_ok_of_mem hmem hrun
  obtain ⟨t₁, hmedia, -⟩ := ExceptFolds.bind_eq_ok hline
  rw [ParseState.parseMedia, if_neg (by decide), if_pos (by decide)] at hmedia
  cases hmedia

/-- The ends of the lines make no difference exactly if no line is ended by CRLF, or all are; but
for empty lines alone only the first will do. -/
theorem unchanged_iff (ends : LineEnds) :
    ((∀ ls : EndedLines ends, ls.Filled → ls.Unchanged) ↔ ¬ ends.Mixed) ∧
      ∀ ls : EndedLines ends, ¬ ls.Filled → (ls.Unchanged ↔ .crlf ∉ ends.toList) := by
  refine ⟨⟨fun hall hmixed => ?_, fun hnot ls hfilled => ?_⟩, fun ls h => ls.unchanged_iff_of_empty h⟩
  · obtain ⟨hfilled, hchanged⟩ := changed_of_mixed hmixed
    exact hchanged (hall _ hfilled)
  · by_cases hcrlf : .crlf ∈ ends.toList
    · refine ls.unchanged_of_all_crlf (fun e he => ?_) hfilled
      by_contra hne
      exact hnot ⟨hcrlf, e, he, hne⟩
    · exact ls.unchanged_of_not_crlf hcrlf

/-- A password whose line has no CR, after a line that has. -/
def mixedOffer : EndedLines ⟨[.crlf, .lf], by decide⟩ where
  toList := [("m=audio 9 UDP/TLS/RTP/SAVPF 111".toList, .crlf), ("a=ice-pwd:l8PkVNND".toList, .lf)]
  ended := rfl
  clean := by decide

/-- What is read with that password. -/
def withPassword (icePwd : String) : SessionDescription where
  contents := [{ kind := .audio }]
  transportInfos := [{ mid := "audio", icePwd }, {}]

/-- The password loses its last character. -/
theorem mixedOffer_changed :
    setRemoteSdp (sdpText mixedOffer.toList) = .ok (withPassword "l8PkVNN") ∧
      setRemoteSdp (sdpText mixedOffer.plain) = .ok (withPassword "l8PkVNND") ∧ ¬ mixedOffer.Unchanged := by
  have hmixed : setRemoteSdp (sdpText mixedOffer.toList) = .ok (withPassword "l8PkVNN") :=
    ExceptFolds.ok_of_toOption (by decide +kernel)
  have hplain : setRemoteSdp (sdpText mixedOffer.plain) = .ok (withPassword "l8PkVNND") :=
    ExceptFolds.ok_of_toOption (by decide +kernel)
  refine ⟨hmixed, hplain, fun h => ?_⟩
  have hsame := Except.ok.inj (hmixed.symm.trans (h.trans hplain))
  revert hsame
  decide

end Ends
end Sdp
end XrtcServer
