import XrtcServer.SdpMedium
import XrtcServer.SdpTracks

/-! The lines of the sources of a track and of their groups, and what is read from them. -/
namespace XrtcServer
namespace Sdp
open XrtcServer.Stream
variable {ssrc : UInt32} {attr value line : Text} {c : Char} {x y : Text} {group : SsrcGroup} {groups : List SsrcGroup}
  {infos : List SsrcInfo} {track : StreamParams} {streams : List StreamParams}

/-- The attributes of a source. -/
def attributes : List String := ["cname", "msid", "mslabel", "lable"]

theorem not_mem_attribute {attr : String} (h : attr ∈ attributes) :
    '=' ∉ attr.toList ∧ ':' ∉ attr.toList ∧ ' ' ∉ attr.toList ∧ '\n' ∉ attr.toList := by
  have hnames : ∀ attr ∈ attributes, '=' ∉ attr.toList ∧ ':' ∉ attr.toList ∧ ' ' ∉ attr.toList ∧ '\n' ∉ attr.toList := by decide
  exact hnames attr h

section Patterns

theorem addSsrcLine_eq : addSsrcLine ssrc attr value = valueLine "ssrc".toList (decimal ssrc.toNat) (attr ++ ':' :: value) := by
  unfold addSsrcLine
  generalize decimal ssrc.toNat = number
  simp [valueLine]

/-- The numbers of a group after its first. -/
def numbers (ssrcs : List UInt32) : Text := ssrcs.flatMap fun ssrc => ' ' :: decimal ssrc.toNat

theorem addSsrcGroupLine_eq (ssrcs : List UInt32) (h : group.ssrcs = ssrc :: ssrcs) :
    addSsrcGroupLine group =
      valueLine "ssrc-group".toList group.semantics.toList (decimal ssrc.toNat ++ numbers ssrcs) := by
  unfold addSsrcGroupLine
  rw [h, List.flatMap_cons]
  generalize decimal ssrc.toNat = number
  simp [valueLine, numbers]

theorem not_mem_numbers (ssrcs : List UInt32) (hc : c ≠ ' ') (hminus : c ≠ '-') (hdigit : ¬ c.isDigit) : c ∉ numbers ssrcs := by
  intro h
  obtain ⟨ssrc, -, h⟩ := List.mem_flatMap.mp h
  rcases List.mem_cons.mp h with h | h
  · exact hc h
  · exact not_mem_decimal hminus hdigit h

/-- A line of a source has those patterns that its text has. -/
theorem found_marker_addSsrcLine {attr : String} (hattr : attr ∈ attributes) {marker : String} (h : marker ∈ markers) :
    found (addSsrcLine ssrc attr.toList value) marker = found value marker := by
  have hfirst : found ("a=ssrc".toList ++ ':' :: decimal ssrc.toNat) marker = false :=
    (unmarked_append_cons (.inl rfl)).mpr ⟨by decide, unmarked_of_not_mem (not_mem_decimal_separator _).1⟩ marker h
  have hname : found attr.toList marker = false := unmarked_of_not_mem (not_mem_attribute hattr).1 marker h
  rw [addSsrcLine_eq, valueLine, found_append_cons_eq (not_mem_marker (.inr rfl) marker h),
    found_append_cons_eq (not_mem_marker (.inl rfl) marker h), hname, Bool.false_or]
  exact (congrArg (· || _) hfirst).trans (Bool.false_or _)

/-- A line of a group has those patterns that its semantics has. -/
theorem found_marker_addSsrcGroupLine (hne : group.ssrcs ≠ []) {marker : String} (h : marker ∈ markers) :
    found (addSsrcGroupLine group) marker = found group.semantics.toList marker := by
  obtain ⟨ssrc, ssrcs, hssrcs⟩ := List.exists_cons_of_ne_nil hne
  have hfirst : found "a=ssrc-group".toList marker = false := by
    revert marker
    decide
  have hrest : found (decimal ssrc.toNat ++ numbers ssrcs) marker = false := by
    refine unmarked_of_not_mem ?_ marker h
    simpa using ⟨(not_mem_decimal_separator ssrc.toNat).1, not_mem_numbers ssrcs (by decide) (by decide) (by decide)⟩
  have hvalue : found ("a=ssrc-group".toList ++ ':' :: group.semantics.toList) marker = found group.semantics.toList marker := by
    rw [found_append_cons_eq (not_mem_marker (.inl rfl) marker h), hfirst, Bool.false_or]
  rw [addSsrcGroupLine_eq ssrcs hssrcs, valueLine, found_append_cons_eq (not_mem_marker (.inr rfl) marker h), hrest, Bool.or_false]
  exact hvalue

theorem found_addSsrcLine : found (addSsrcLine ssrc attr value) "a=ssrc:" = true := by
  refine found_of_start ?_
  unfold addSsrcLine
  generalize decimal ssrc.toNat = number
  rw [List.append_assoc, List.append_assoc, List.append_assoc]
  exact List.prefix_append _ _

theorem found_addSsrcGroupLine : found (addSsrcGroupLine group) "a=ssrc-group:" = true := by
  refine found_of_start ?_
  unfold addSsrcGroupLine
  rw [List.append_assoc]
  exact List.prefix_append _ _

/-- A line of a source is not one of a group. -/
theorem not_found_group_addSsrcLine {attr : String} (hattr : attr ∈ attributes) (hvalue : ':' ∉ value) :
    found (addSsrcLine ssrc attr.toList value) "a=ssrc-group:" = false := by
  have hends : ∀ attr ∈ attributes, ¬ "a=ssrc-group".toList <:+ attr.toList := by decide
  have hfirst : found ("a=ssrc".toList ++ ':' :: decimal ssrc.toNat) "a=ssrc-group:" = false :=
    not_found_of_aligned (u := "a=ssrc-group".toList) (v := []) rfl (by decide) (not_mem_decimal_separator _).2.1
      fun h => absurd h.1 (by decide)
  rw [addSsrcLine_eq, valueLine, found_append_cons_eq (by decide)]
  refine Bool.or_eq_false_iff.mpr ⟨hfirst, ?_⟩
  exact not_found_of_aligned (u := "a=ssrc-group".toList) (v := []) rfl (not_mem_attribute hattr).2.1 hvalue
    fun h => hends attr hattr h.1

/-- A line of a group is not one of a source. -/
theorem not_found_ssrc_addSsrcGroupLine (hne : group.ssrcs ≠ []) (h : ':' ∉ group.semantics.toList) :
    found (addSsrcGroupLine group) "a=ssrc:" = false := by
  obtain ⟨ssrc, ssrcs, hssrcs⟩ := List.exists_cons_of_ne_nil hne
  have hfirst : found ("a=ssrc-group".toList ++ ':' :: group.semantics.toList) "a=ssrc:" = false :=
    not_found_of_aligned (u := "a=ssrc".toList) (v := []) rfl (by decide) h fun hboth => absurd hboth.1 (by decide)
  have hrest : ':' ∉ decimal ssrc.toNat ++ numbers ssrcs := by
    simpa using ⟨(not_mem_decimal_separator ssrc.toNat).2.1, not_mem_numbers ssrcs (by decide) (by decide) (by decide)⟩
  rw [addSsrcGroupLine_eq ssrcs hssrcs, valueLine, found_append_cons_eq (by decide)]
  exact Bool.or_eq_false_iff.mpr ⟨hfirst, found_of_not_mem (by decide : ':' ∈ "a=ssrc:".toList) hrest⟩

end Patterns

section Sources

theorem parseSsrcInfo_addSsrcLine (attr : String) (hattr : attr ∈ attributes) (hvalue : value.head? ≠ some ':') :
    parseSsrcInfo infos (addSsrcLine ssrc attr.toList value) =
      if attr.toList = "cname".toList then
        .ok (updateSsrcInfo infos ssrc fun info => { info with cname := String.ofList value })
      else if attr.toList = "msid".toList then
        match split value ' ' with
        | [streamId] => .ok (updateSsrcInfo infos ssrc fun info => { info with streamId := String.ofList streamId })
        | [streamId, trackId] =>
          .ok (updateSsrcInfo infos ssrc fun info =>
            { info with streamId := String.ofList streamId, trackId := String.ofList trackId })
        | _ => .error .error
      else .ok (updateSsrcInfo infos ssrc id) := by
  have hfield : ' ' ∉ "ssrc".toList ++ ':' :: decimal ssrc.toNat := by
    simpa using (not_mem_decimal_separator ssrc.toNat).2.2.1
  have hsubstr : substr (valueLine "ssrc".toList (decimal ssrc.toNat) (attr.toList ++ ':' :: value)) 2 =
      .ok (("ssrc".toList ++ ':' :: decimal ssrc.toNat) ++ ' ' :: (attr.toList ++ ':' :: value)) := rfl
  have hnumber : substr ("ssrc".toList ++ ':' :: decimal ssrc.toNat) 5 = .ok (decimal ssrc.toNat) := rfl
  have hhead : ∀ attr ∈ attributes, ∀ rest, (attr.toList ++ rest).head? ≠ some ' ' := by
    simp [attributes]
  have hcolon := (not_mem_attribute hattr).2.1
  have hfound : ¬ (¬ found (addSsrcLine ssrc attr.toList value) "a=ssrc:" = true) := not_not.mpr found_addSsrcLine
  unfold parseSsrcInfo
  rw [if_neg hfound, addSsrcLine_eq, hsubstr, ExceptFolds.ok_bind, tokenizeFirst_eq hfield (hhead attr hattr _)]
  dsimp only
  rw [hnumber, ExceptFolds.ok_bind, fromString_decimal]
  dsimp only
  rw [tokenizeFirst_eq hcolon hvalue]
  rfl

theorem updateSsrcInfo_new (h : ∀ info ∈ infos, info.ssrcId ≠ ssrc) (f : SsrcInfo → SsrcInfo) :
    updateSsrcInfo infos ssrc f = infos ++ [f { ssrcId := ssrc }] := by
  have hnone : infos.any (·.ssrcId = ssrc) = false := by
    rw [List.any_eq_false]
    exact fun info hinfo => by simpa using h info hinfo
  simp [updateSsrcInfo, hnone]

theorem updateSsrcInfo_last (h : ∀ info ∈ infos, info.ssrcId ≠ ssrc) {info : SsrcInfo} (hinfo : info.ssrcId = ssrc)
    (f : SsrcInfo → SsrcInfo) : updateSsrcInfo (infos ++ [info]) ssrc f = infos ++ [f info] := by
  have hothers : ∀ other ∈ infos, decide (other.ssrcId = ssrc) = false := fun other hother => decide_eq_false (h other hother)
  have hself : decide (info.ssrcId = ssrc) = true := decide_eq_true hinfo
  have hany := @any_append_last _ (fun info : SsrcInfo => decide (info.ssrcId = ssrc)) infos _ hself
  rw [updateSsrcInfo, if_pos hany]
  exact modify_findIdx_append_last hothers hself f

/-- The lines of a source of the track. -/
def sourceLines (track : StreamParams) (ssrc : UInt32) : List Text :=
  [addSsrcLine ssrc "cname".toList track.cname.toList,
   addSsrcLine ssrc "msid".toList (track.streamId.toList ++ " ".toList ++ track.id.toList),
   addSsrcLine ssrc "mslabel".toList track.streamId.toList,
   addSsrcLine ssrc "lable".toList track.id.toList]

def groupLines (track : StreamParams) : List Text := (track.ssrcGroups.filter fun group => group.ssrcs ≠ []).map addSsrcGroupLine

theorem trackLines_eq (track : StreamParams) : trackLines track = groupLines track ++ track.ssrcs.flatMap (sourceLines track) := rfl

/-- A text that is one field of a line. -/
structure Word (s : String) : Prop where
  nonempty : s.toList ≠ []
  blank : ' ' ∉ s.toList
  colon : ':' ∉ s.toList
  newline : '\n' ∉ s.toList

instance (s : String) : Decidable (Word s) :=
  decidable_of_iff (s.toList ≠ [] ∧ ' ' ∉ s.toList ∧ ':' ∉ s.toList ∧ '\n' ∉ s.toList)
    ⟨fun h => ⟨h.1, h.2.1, h.2.2.1, h.2.2.2⟩, fun h => ⟨h.nonempty, h.blank, h.colon, h.newline⟩⟩

/-- The texts of a track that its lines have. -/
structure Named (track : StreamParams) : Prop where
  id : Word track.id
  streamId : Word track.streamId
  cname : Word track.cname

theorem head?_ne_of_not_mem (h : c ∉ x) : x.head? ≠ some c := fun hhead => h (List.mem_of_mem_head? hhead)

/-- The four lines of a new source. -/
theorem foldlM_sourceLines {track : StreamParams} (h : Named track) (hnew : ∀ info ∈ infos, info.ssrcId ≠ ssrc) :
    (sourceLines track ssrc).foldlM parseSsrcInfo infos =
      .ok (infos ++ [⟨ssrc, track.cname, track.streamId, track.id⟩]) := by
  have hmsid : split (track.streamId.toList ++ " ".toList ++ track.id.toList) ' ' = [track.streamId.toList, track.id.toList] := by
    rw [List.append_assoc]
    show split (track.streamId.toList ++ ' ' :: track.id.toList) ' ' = _
    rw [split_append_cons h.streamId.blank, split_of_not_mem h.id.blank]
  have hmsidcolon : (track.streamId.toList ++ " ".toList ++ track.id.toList).head? ≠ some ':' := by
    refine head?_ne_of_not_mem ?_
    simpa using ⟨h.streamId.colon, h.id.colon⟩
  have hcname : parseSsrcInfo infos (addSsrcLine ssrc "cname".toList track.cname.toList) =
      .ok (infos ++ [⟨ssrc, track.cname, "", ""⟩]) := by
    rw [parseSsrcInfo_addSsrcLine "cname" (by decide) (head?_ne_of_not_mem h.cname.colon), if_pos rfl, updateSsrcInfo_new hnew,
      String.ofList_toList]
  have hids : parseSsrcInfo (infos ++ [⟨ssrc, track.cname, "", ""⟩])
      (addSsrcLine ssrc "msid".toList (track.streamId.toList ++ " ".toList ++ track.id.toList)) =
        .ok (infos ++ [⟨ssrc, track.cname, track.streamId, track.id⟩]) := by
    rw [parseSsrcInfo_addSsrcLine "msid" (by decide) hmsidcolon, if_neg (by decide), if_pos rfl, hmsid]
    dsimp only
    rw [updateSsrcInfo_last hnew rfl, String.ofList_toList, String.ofList_toList]
  have hlabel {attr : String} (hattr : attr ∈ ["mslabel", "lable"]) {value : String} (hvalue : ':' ∉ value.toList) :
      parseSsrcInfo (infos ++ [⟨ssrc, track.cname, track.streamId, track.id⟩]) (addSsrcLine ssrc attr.toList value.toList) =
        .ok (infos ++ [⟨ssrc, track.cname, track.streamId, track.id⟩]) := by
    have hnames : ∀ attr ∈ ["mslabel", "lable"], attr ∈ attributes ∧ attr.toList ≠ "cname".toList ∧ attr.toList ≠ "msid".toList := by
      decide
    obtain ⟨hmem, hcname, hmsid⟩ := hnames attr hattr
    rw [parseSsrcInfo_addSsrcLine attr hmem (head?_ne_of_not_mem hvalue), if_neg hcname, if_neg hmsid, updateSsrcInfo_last hnew rfl]
    rfl
  rw [sourceLines, ExceptFolds.foldlM_cons_ok hcname, ExceptFolds.foldlM_cons_ok hids,
    ExceptFolds.foldlM_cons_ok (hlabel (by decide) h.streamId.colon), ExceptFolds.foldlM_cons_ok (hlabel (by decide) h.id.colon)]
  rfl

/-- The lines of sources that are not known yet. -/
theorem foldlM_sources {track : StreamParams} (h : Named track) {ssrcs : List UInt32} (hnodup : ssrcs.Nodup)
    (hnew : ∀ ssrc ∈ ssrcs, ∀ info ∈ infos, info.ssrcId ≠ ssrc) :
    (ssrcs.flatMap (sourceLines track)).foldlM parseSsrcInfo infos =
      .ok (infos ++ ssrcs.map fun ssrcId => { ssrcId, cname := track.cname, streamId := track.streamId, trackId := track.id }) := by
  induction ssrcs generalizing infos with
  | nil => rw [List.map_nil, List.append_nil]; rfl
  | cons ssrc ssrcs ih =>
    obtain ⟨hnot, hrest⟩ := List.nodup_cons.mp hnodup
    have hfirst := foldlM_sourceLines h (hnew ssrc List.mem_cons_self)
    have hlater : ∀ other ∈ ssrcs, ∀ info ∈ infos ++ [⟨ssrc, track.cname, track.streamId, track.id⟩], info.ssrcId ≠ other := by
      intro other hother info hinfo
      rcases List.mem_append.mp hinfo with hinfo | hinfo
      · exact hnew other (List.mem_cons_of_mem ssrc hother) info hinfo
      · obtain rfl := List.mem_singleton.mp hinfo
        rintro rfl
        exact hnot hother
    rw [List.flatMap_cons, ExceptFolds.foldlM_append_eq hfirst, ih hrest hlater, List.append_assoc]
    rfl

end Sources

section Groups

theorem split_numbers (ssrc : UInt32) (ssrcs : List UInt32) :
    split (decimal ssrc.toNat ++ numbers ssrcs) ' ' = (ssrc :: ssrcs).map fun ssrc => decimal ssrc.toNat := by
  unfold numbers
  induction ssrcs generalizing ssrc with
  | nil =>
    rw [List.flatMap_nil, List.append_nil, split_of_not_mem (not_mem_decimal_separator _).2.2.1]
    rfl
  | cons next ssrcs ih =>
    rw [List.flatMap_cons, List.cons_append, split_append_cons (not_mem_decimal_separator _).2.2.1, ih]
    rfl

theorem mapM_fromString (ssrcs : List UInt32) : (ssrcs.map fun ssrc => decimal ssrc.toNat).mapM fromString = some ssrcs := by
  induction ssrcs with
  | nil => rfl
  | cons ssrc ssrcs ih =>
    rw [List.map_cons, List.mapM_cons, fromString_decimal, ih]
    rfl

/-- A group is read back. -/
theorem parseSsrcGroupInfo_addSsrcGroupLine (h : Word group.semantics) (hne : group.ssrcs ≠ []) :
    parseSsrcGroupInfo groups (addSsrcGroupLine group) = .ok (groups ++ [group]) := by
  obtain ⟨ssrc, ssrcs, hssrcs⟩ := List.exists_cons_of_ne_nil hne
  have hfound : ¬ (¬ found (addSsrcGroupLine group) "a=ssrc-group:" = true) := not_not.mpr found_addSsrcGroupLine
  have hsubstr (rest : Text) : substr (valueLine "ssrc-group".toList group.semantics.toList rest) 2 =
      .ok (("ssrc-group".toList ++ ':' :: group.semantics.toList) ++ ' ' :: rest) := rfl
  have hfield : ' ' ∉ "ssrc-group".toList ++ ':' :: group.semantics.toList := by
    simpa using h.blank
  have hattr : getAttribute ("ssrc-group".toList ++ ':' :: group.semantics.toList) = group.semantics.toList :=
    getAttribute_eq (by decide) h.colon (by decide)
  have hread := mapM_fromString (ssrc :: ssrcs)
  unfold parseSsrcGroupInfo
  rw [if_neg hfound, addSsrcGroupLine_eq ssrcs hssrcs, hsubstr, ExceptFolds.ok_bind, split_append_cons hfield,
    split_numbers, List.map_cons]
  dsimp only
  rw [hattr, if_neg h.nonempty, ← List.map_cons (f := fun ssrc : UInt32 => decimal ssrc.toNat), hread, String.ofList_toList, ← hssrcs]
  rfl

end Groups

section Tracks

def printedGroups (track : StreamParams) : List SsrcGroup := track.ssrcGroups.filter fun group => group.ssrcs ≠ []

theorem mem_printedGroups : group ∈ printedGroups track ↔ group ∈ track.ssrcGroups ∧ group.ssrcs ≠ [] := by
  simp [printedGroups]

theorem groupLines_eq (track : StreamParams) : groupLines track = (printedGroups track).map addSsrcGroupLine := rfl

/-- The texts of a track and of its groups can be told apart in its lines. -/
structure Readable (track : StreamParams) : Prop where
  named : Named track
  groups : ∀ group ∈ printedGroups track, Word group.semantics

/-- The texts in the lines of a source. -/
def sourceTexts (track : StreamParams) : List Text :=
  [track.cname.toList, track.streamId.toList ++ " ".toList ++ track.id.toList, track.streamId.toList, track.id.toList]

theorem mem_sourceLines (h : line ∈ sourceLines track ssrc) :
    ∃ attr ∈ attributes, ∃ value ∈ sourceTexts track, line = addSsrcLine ssrc attr.toList value := by
  simp only [sourceLines, List.mem_cons, List.not_mem_nil, or_false] at h
  rcases h with rfl | rfl | rfl | rfl
  · exact ⟨"cname", by decide, _, by simp [sourceTexts], rfl⟩
  · exact ⟨"msid", by decide, _, by simp [sourceTexts], rfl⟩
  · exact ⟨"mslabel", by decide, _, by simp [sourceTexts], rfl⟩
  · exact ⟨"lable", by decide, _, by simp [sourceTexts], rfl⟩

theorem Named.not_mem_value (h : Named track) (hvalue : value ∈ sourceTexts track) : ':' ∉ value ∧ '\n' ∉ value := by
  simp only [sourceTexts, List.mem_cons, List.not_mem_nil, or_false] at hvalue
  rcases hvalue with rfl | rfl | rfl | rfl
  · exact ⟨h.cname.colon, h.cname.newline⟩
  · simpa using ⟨⟨h.streamId.colon, h.id.colon⟩, h.streamId.newline, h.id.newline⟩
  · exact ⟨h.streamId.colon, h.streamId.newline⟩
  · exact ⟨h.id.colon, h.id.newline⟩

/-- The information that is read from the lines of all tracks. -/
theorem foldlM_trackLines_infos (hssrcs : (streams.flatMap (·.ssrcs)).Nodup) (h : ∀ track ∈ streams, Readable track) :
    (streams.flatMap trackLines).foldlM parseSsrcInfo [] = .ok (streams.flatMap sourceInfos) := by
  refine ExceptFolds.foldlM_flatMap_eq (g := fun pre => pre.flatMap sourceInfos) fun pre track post heq => ?_
  have hread := h track (by rw [heq]; simp)
  have hgroups : (groupLines track).foldlM parseSsrcInfo (pre.flatMap sourceInfos) = .ok (pre.flatMap sourceInfos) := by
    refine ExceptFolds.foldlM_skip fun line hline => ?_
    obtain ⟨group, hgroup, rfl⟩ := List.mem_map.mp hline
    have hne := (mem_printedGroups.mp hgroup).2
    exact parseSsrcInfo_of_not_found (not_found_ssrc_addSsrcGroupLine hne (hread.groups group hgroup).colon)
  rw [heq, List.flatMap_append, List.flatMap_cons] at hssrcs
  obtain ⟨-, hlater, hdisjoint⟩ := List.nodup_append.mp hssrcs
  have hnew : ∀ ssrc ∈ track.ssrcs, ∀ info ∈ pre.flatMap sourceInfos, info.ssrcId ≠ ssrc := by
    intro ssrc hssrc info hinfo
    obtain ⟨earlier, hearlier, hinfo⟩ := List.mem_flatMap.mp hinfo
    obtain ⟨ssrc', hssrc', rfl⟩ := List.mem_map.mp hinfo
    exact hdisjoint ssrc' (List.mem_flatMap.mpr ⟨earlier, hearlier, hssrc'⟩) ssrc (List.mem_append_left _ hssrc)
  rw [trackLines_eq, ExceptFolds.foldlM_append_eq hgroups, foldlM_sources hread.named (List.nodup_append.mp hlater).1 hnew,
    List.flatMap_append, List.flatMap_cons, List.flatMap_nil, List.append_nil]
  rfl

/-- The groups that are read from the lines of all tracks. -/
theorem foldlM_trackLines_groups (h : ∀ track ∈ streams, Readable track) :
    (streams.flatMap trackLines).foldlM parseSsrcGroupInfo [] = .ok (streams.flatMap printedGroups) := by
  refine ExceptFolds.foldlM_flatMap_eq (g := fun pre => pre.flatMap printedGroups) fun pre track post heq => ?_
  have hread := h track (by rw [heq]; simp)
  have hall : ∀ groups rest : List SsrcGroup, (∀ group ∈ rest, group ∈ printedGroups track) →
      (rest.map addSsrcGroupLine).foldlM parseSsrcGroupInfo groups = .ok (groups ++ rest) := by
    intro groups rest
    induction rest generalizing groups with
    | nil => exact fun _ => by rw [List.append_nil]; rfl
    | cons group rest ih =>
      intro hrest
      have hmem := hrest group List.mem_cons_self
      have hne := (mem_printedGroups.mp hmem).2
      rw [List.map_cons, ExceptFolds.foldlM_cons_ok (parseSsrcGroupInfo_addSsrcGroupLine (hread.groups group hmem) hne),
        ih (groups ++ [group]) fun g hg => hrest g (List.mem_cons_of_mem group hg), List.append_assoc]
      rfl
  have hsources (groups : List SsrcGroup) :
      (track.ssrcs.flatMap (sourceLines track)).foldlM parseSsrcGroupInfo groups = .ok groups := by
    refine ExceptFolds.foldlM_skip fun line hline => ?_
    obtain ⟨ssrc, hssrc, hline⟩ := List.mem_flatMap.mp hline
    obtain ⟨attr, hattr, value, hvalue, rfl⟩ := mem_sourceLines hline
    exact parseSsrcGroupInfo_of_not_found (not_found_group_addSsrcLine hattr (hread.named.not_mem_value hvalue).1)
  rw [trackLines_eq, groupLines_eq, ExceptFolds.foldlM_append_eq (hall _ _ fun _ hg => hg), hsources, List.flatMap_append,
    List.flatMap_cons, List.flatMap_nil, List.append_nil]

end Tracks

end Sdp
end XrtcServer
