import XrtcServer.SdpText

/-! The tracks that come out of the information on their sources, and the groups that come back to
them. -/
namespace XrtcServer
namespace Sdp
open XrtcServer.Stream

/-- What the lines of a track say of its sources. -/
def sourceInfos (track : StreamParams) : List SsrcInfo :=
  track.ssrcs.map fun ssrcId => { ssrcId, cname := track.cname, streamId := track.streamId, trackId := track.id }

def bare (track : StreamParams) : StreamParams := { track with ssrcGroups := [] }

section Entries
variable {α : Type} {p : α → Bool} {xs : List α} {x : α}

theorem findIdx_append_last (hxs : ∀ a ∈ xs, p a = false) (hx : p x = true) : (xs ++ [x]).findIdx p = xs.length := by
  have hfirst : xs.findIdx p = xs.length := List.findIdx_eq_length_of_false hxs
  rw [List.findIdx_append, if_neg (by omega), List.findIdx_cons, hx, cond_true, Nat.zero_add]

/-- The last entry is the one to be found. -/
theorem modify_findIdx_append_last (hxs : ∀ a ∈ xs, p a = false) (hx : p x = true) (f : α → α) :
    (xs ++ [x]).modify ((xs ++ [x]).findIdx p) f = xs ++ [f x] := by
  rw [findIdx_append_last hxs hx]
  exact List.modifyTailIdx_add (List.modifyHead f) 0 xs [x]

theorem any_append_last (hx : p x = true) : (xs ++ [x]).any p = true := by
  rw [List.any_append, List.any_cons, hx, Bool.true_or, Bool.or_true]

end Entries

section Tracks
variable {track : StreamParams} {tracks streams : List StreamParams}

/-- The first source of a track makes it. -/
theorem addToTrack_new (h : ∀ t ∈ tracks, t.id ≠ track.id) (ssrc : UInt32) :
    addToTrack tracks ⟨ssrc, track.cname, track.streamId, track.id⟩ = tracks ++ [{ track with ssrcs := [ssrc], ssrcGroups := [] }] := by
  have hnone : tracks.any (·.id = track.id) = false := by
    rw [List.any_eq_false]
    exact fun t ht => by simpa using h t ht
  simp only [addToTrack, hnone, Bool.false_eq_true, if_false, List.nil_append]

/-- Every further source goes to it. -/
theorem addToTrack_last (h : ∀ t ∈ tracks, t.id ≠ track.id) (ssrcs : List UInt32) (ssrc : UInt32) :
    addToTrack (tracks ++ [{ track with ssrcs, ssrcGroups := [] }]) ⟨ssrc, track.cname, track.streamId, track.id⟩ =
      tracks ++ [{ track with ssrcs := ssrcs ++ [ssrc], ssrcGroups := [] }] := by
  have hothers : ∀ t ∈ tracks, decide (t.id = track.id) = false := fun t ht => decide_eq_false (h t ht)
  have hself : decide (({ track with ssrcs, ssrcGroups := [] } : StreamParams).id = track.id) = true := by simp
  have hany := @any_append_last _ (fun t : StreamParams => decide (t.id = track.id)) tracks _ hself
  dsimp only [addToTrack]
  rw [if_pos hany]
  exact modify_findIdx_append_last hothers hself _

theorem foldl_sourceInfos (h : ∀ t ∈ tracks, t.id ≠ track.id) (hne : track.ssrcs ≠ []) :
    (sourceInfos track).foldl addToTrack tracks = tracks ++ [bare track] := by
  have hrest : ∀ rest ssrcs : List UInt32,
      (rest.map fun ssrc => (⟨ssrc, track.cname, track.streamId, track.id⟩ : SsrcInfo)).foldl addToTrack
        (tracks ++ [{ track with ssrcs, ssrcGroups := [] }]) = tracks ++ [{ track with ssrcs := ssrcs ++ rest, ssrcGroups := [] }] := by
    intro rest
    induction rest with
    | nil =>
      intro ssrcs
      rw [List.append_nil]
      rfl
    | cons ssrc rest ih =>
      intro ssrcs
      rw [List.map_cons, List.foldl_cons, addToTrack_last h, ih, List.append_assoc]
      rfl
  obtain ⟨ssrc, ssrcs, hssrcs⟩ := List.exists_cons_of_ne_nil hne
  rw [sourceInfos, hssrcs, List.map_cons, List.foldl_cons, addToTrack_new h, hrest, bare, hssrcs]
  rfl

/-- The sources of tracks with different ids make the tracks again. -/
theorem createTrackFromSsrcInfo_eq (hids : (streams.map (·.id)).Nodup) (hssrcs : ∀ t ∈ streams, t.ssrcs ≠ []) :
    createTrackFromSsrcInfo (streams.flatMap sourceInfos) = streams.map bare := by
  have hall : ∀ pre post, streams = pre ++ post →
      (post.flatMap sourceInfos).foldl addToTrack (pre.map bare) = streams.map bare := by
    intro pre post
    induction post generalizing pre with
    | nil =>
      rintro rfl
      rw [List.append_nil]
      rfl
    | cons track post ih =>
      intro heq
      have hne : track.ssrcs ≠ [] := hssrcs track (by rw [heq]; simp)
      have hnew : ∀ t ∈ pre.map bare, t.id ≠ track.id := by
        intro t ht hid
        obtain ⟨u, hu, rfl⟩ := List.mem_map.mp ht
        rw [heq, List.map_append, List.map_cons] at hids
        exact (List.nodup_append.mp hids).2.2 u.id (List.mem_map_of_mem hu) track.id List.mem_cons_self hid
      rw [List.flatMap_cons, List.foldl_append, foldl_sourceInfos hnew hne]
      have hstep := ih (pre ++ [track]) (by simpa using heq)
      rwa [List.map_append] at hstep
  exact hall [] streams rfl

theorem ssrcs_of_addToTrack {info : SsrcInfo} {n : UInt32} (h : ∃ t ∈ addToTrack tracks info, n ∈ t.ssrcs) :
    n = info.ssrcId ∨ ∃ t ∈ tracks, n ∈ t.ssrcs := by
  obtain ⟨t, ht, hn⟩ := h
  simp only [addToTrack] at ht
  split at ht
  · obtain ⟨i, hi, rfl⟩ := List.mem_iff_getElem.mp ht
    rw [List.getElem_modify] at hn
    have hlt : i < tracks.length := by simpa using hi
    split at hn
    · rcases List.mem_append.mp hn with hn | hn
      · exact .inr ⟨_, List.getElem_mem hlt, hn⟩
      · exact .inl (List.mem_singleton.mp hn)
    · exact .inr ⟨_, List.getElem_mem hlt, hn⟩
  · rcases List.mem_append.mp ht with ht | ht
    · exact .inr ⟨t, ht, hn⟩
    · obtain rfl := List.mem_singleton.mp ht
      exact .inl (by simpa using hn)

/-- A track has no source that no information was on. -/
theorem ssrcId_of_mem {infos : List SsrcInfo} {n : UInt32} (h : ∃ t ∈ createTrackFromSsrcInfo infos, n ∈ t.ssrcs) :
    ∃ info ∈ infos, info.ssrcId = n := by
  have hfold : ∀ tracks, (∃ t ∈ infos.foldl addToTrack tracks, n ∈ t.ssrcs) →
      (∃ info ∈ infos, info.ssrcId = n) ∨ ∃ t ∈ tracks, n ∈ t.ssrcs := by
    clear h
    induction infos with
    | nil => exact fun tracks h => .inr h
    | cons info infos ih =>
      intro tracks h
      rcases ih (addToTrack tracks info) h with ⟨info', hmem, hid⟩ | h
      · exact .inl ⟨info', List.mem_cons_of_mem info hmem, hid⟩
      · rcases ssrcs_of_addToTrack h with h | h
        · exact .inl ⟨info, List.mem_cons_self, h.symm⟩
        · exact .inr h
  rcases hfold [] h with h | ⟨t, ht, -⟩
  · exact h
  · cases ht

end Tracks

section Groups
variable {track : StreamParams} {tracks streams : List StreamParams} {groups : List SsrcGroup}

/-- The first source of the group is one of the track. -/
def StartsIn (track : StreamParams) (group : SsrcGroup) : Prop := ∃ ssrc ∈ track.ssrcs, group.ssrcs.head? = some ssrc

instance (track : StreamParams) (group : SsrcGroup) : Decidable (StartsIn track group) :=
  inferInstanceAs (Decidable (∃ ssrc ∈ track.ssrcs, _))

theorem addGroup_eq (tracks : List StreamParams) (group : SsrcGroup) :
    addGroup tracks group =
      tracks.map fun track => { track with ssrcGroups := track.ssrcGroups ++ [group].filter (StartsIn track ·) } := by
  unfold addGroup
  split
  · rename_i hnone
    conv_lhs => rw [← List.map_id tracks]
    refine List.map_congr_left fun track _ => ?_
    have hnot : ¬ StartsIn track group := by simp [StartsIn, hnone]
    simp [hnot]
  · rename_i ssrc ssrcs hcons
    refine List.map_congr_left fun track _ => ?_
    have hiff : StartsIn track group ↔ ssrc ∈ track.ssrcs := by simp [StartsIn, hcons]
    by_cases h : ssrc ∈ track.ssrcs
    · simp [hiff.mpr h, h]
    · simp [mt hiff.mp h, h]

/-- Every track gets the groups that start in it. -/
theorem foldl_addGroup (tracks : List StreamParams) (groups : List SsrcGroup) :
    groups.foldl addGroup tracks =
      tracks.map fun track => { track with ssrcGroups := track.ssrcGroups ++ groups.filter (StartsIn track ·) } := by
  induction groups generalizing tracks with
  | nil => simp
  | cons group groups ih =>
    rw [List.foldl_cons, addGroup_eq, ih, List.map_map]
    refine List.map_congr_left fun track _ => ?_
    show ({ track with ssrcGroups := track.ssrcGroups ++ [group].filter (StartsIn track ·) ++ groups.filter (StartsIn track ·) } :
      StreamParams) = _
    rw [List.append_assoc, ← List.filter_append]
    rfl

/-- The groups of tracks without a common source come back to their tracks. -/
theorem foldl_addGroup_eq (hssrcs : (streams.flatMap (·.ssrcs)).Nodup)
    (hgroups : ∀ track ∈ streams, ∀ group ∈ track.ssrcGroups, StartsIn track group) :
    (streams.flatMap (·.ssrcGroups)).foldl addGroup (streams.map bare) = streams := by
  have hdisjoint := (List.nodup_flatMap.mp hssrcs).2
  have hfilter : ∀ track ∈ streams, (streams.flatMap (·.ssrcGroups)).filter (StartsIn track ·) = track.ssrcGroups := by
    intro track htrack
    obtain ⟨pre, post, rfl⟩ := List.append_of_mem htrack
    have hother : ∀ t ∈ pre ++ track :: post, List.Disjoint t.ssrcs track.ssrcs →
        t.ssrcGroups.filter (StartsIn track ·) = [] := by
      intro t ht hdis
      refine List.filter_eq_nil_iff.mpr fun group hgroup => ?_
      obtain ⟨ssrc, hssrc, hhead⟩ := hgroups t ht group hgroup
      rw [decide_eq_true_eq]
      rintro ⟨ssrc', hssrc', hhead'⟩
      obtain rfl := Option.some.inj (hhead.symm.trans hhead')
      exact hdis hssrc hssrc'
    have hsplit := List.pairwise_append.mp hdisjoint
    have hpre : (pre.flatMap (·.ssrcGroups)).filter (StartsIn track ·) = [] := by
      rw [List.filter_flatMap, List.flatMap_eq_nil_iff]
      intro t ht
      exact hother t (List.mem_append_left _ ht) (hsplit.2.2 t ht track List.mem_cons_self)
    have hpost : (post.flatMap (·.ssrcGroups)).filter (StartsIn track ·) = [] := by
      rw [List.filter_flatMap, List.flatMap_eq_nil_iff]
      intro t ht
      exact hother t (by simp [ht]) fun _ h h' => (List.pairwise_cons.mp hsplit.2.1).1 t ht h' h
    have hself : track.ssrcGroups.filter (StartsIn track ·) = track.ssrcGroups := by
      refine List.filter_eq_self.mpr fun group hgroup => decide_eq_true ?_
      exact hgroups track htrack group hgroup
    rw [List.flatMap_append, List.flatMap_cons, List.filter_append, List.filter_append, hpre, hself, hpost, List.nil_append,
      List.append_nil]
  rw [foldl_addGroup, List.map_map]
  conv_rhs => rw [← List.map_id streams]
  refine List.map_congr_left fun track htrack => ?_
  show ({ bare track with ssrcGroups := [] ++ (streams.flatMap (·.ssrcGroups)).filter (StartsIn track ·) } : StreamParams) = track
  rw [hfilter track htrack, List.nil_append]
  rfl

theorem ssrcs_foldl_addGroup (tracks : List StreamParams) (groups : List SsrcGroup) :
    (groups.foldl addGroup tracks).map (·.ssrcs) = tracks.map (·.ssrcs) := by
  rw [foldl_addGroup, List.map_map]
  rfl

end Groups

end Sdp
end XrtcServer
