import XrtcServer.StreamLifetimes
import Mathlib.Data.Set.Insert

/-! Where packets go. A directory records who publishes and who subscribes from the
requests alone; the manager forwards by its maps. -/
namespace XrtcServer
namespace Stream
open ObjectHeap

/-- A stream as the directory knows it. -/
structure Entry where
  type : RtcStreamType
  uid : UInt64
  streamName : String
  number : ℕ

def Entry.Named (x : Entry) (type : RtcStreamType) (uid : UInt64) (streamName : String) : Prop :=
  x.type = type ∧ x.uid = uid ∧ x.streamName = streamName

/-- The streams that were created and have neither ended nor been replaced. -/
abbrev Directory := Set Entry

namespace RtcStreamManager

/-- No stream fails while it is created. -/
def Event.Succeeds : Event → Prop
  | .createPush _ outcome => .failed ∉ outcome.states
  | .createPull _ outcome => .failed ∉ outcome.states
  | _ => True

/-- What reaches the manager when the requests that create streams succeed. -/
abbrev SuccessfulEvent := {e : Event // e.Succeeds}

end RtcStreamManager

namespace Directory
open RtcStreamManager

/-- The push stream of a name. -/
def Publishes (d : Directory) (streamName : String) (p : ℕ) : Prop :=
  ∃ x ∈ d, x.type = .push ∧ x.streamName = streamName ∧ x.number = p

/-- A pull stream of a name. -/
def Subscribes (d : Directory) (streamName : String) (q : ℕ) : Prop :=
  ∃ x ∈ d, x.type = .pull ∧ x.streamName = streamName ∧ x.number = q

open Classical in
/-- A new push stream replaces the one of its name; a new pull stream needs a push
stream and replaces the one of its user and name. The manager tells only the number of
the new stream and whether the stream of a signal or a timer ends. -/
noncomputable def step (d : Directory) (m : RtcStreamManager) : Event → Directory
  | .createPush msg _ =>
    {x ∈ d | ¬(x.type = .push ∧ x.streamName = msg.streamName)} ∪
      {⟨.push, msg.uid.toUInt64, msg.streamName, m.memory.size⟩}
  | .createPull msg _ =>
    if ∃ p, d.Publishes msg.streamName p then
      {x ∈ d | ¬x.Named .pull msg.uid.toUInt64 msg.streamName} ∪
        {⟨.pull, msg.uid.toUInt64, msg.streamName, m.memory.size⟩}
    else d
  | .stopPush uid streamName => {x ∈ d | ¬x.Named .push uid streamName}
  | .stopPull uid streamName => {x ∈ d | ¬x.Named .pull uid streamName}
  | .connectionState i state => {x ∈ d | ¬m.EndedBy (.connectionState i state) x.number}
  | .iceTimeout i => {x ∈ d | ¬m.EndedBy (.iceTimeout i) x.number}

end Directory

namespace RtcStreamManager

/-- The manager and the directory take a step together. -/
noncomputable def stepBoth (s : RtcStreamManager × Directory) (e : SuccessfulEvent) :
    RtcStreamManager × Directory :=
  (s.1.step e.1, s.2.step s.1 e.1)

/-- RTP goes once to each subscriber and nowhere else, RTCP of a subscriber goes once to
the publisher. -/
structure Forwards (s : RtcStreamManager × Directory) : Prop where
  rtp : ∀ streamName p q, s.2.Publishes streamName p → s.2.Subscribes streamName q →
    (s.1.onRtpPacketReceived p).count q = 1
  others : ∀ streamName p q, s.2.Publishes streamName p → ¬s.2.Subscribes streamName q →
    q ∉ s.1.onRtpPacketReceived p
  rtcp : ∀ streamName p q, s.2.Publishes streamName p → s.2.Subscribes streamName q →
    s.1.onRtcpPacketReceived q = [p]

/-- A create-pull request for a published name finds no subscriber of another user. -/
def OneSubscriber (s : RtcStreamManager × Directory) (e : SuccessfulEvent) : Prop :=
  match e.1 with
  | .createPull msg _ => (∃ p, s.2.Publishes msg.streamName p) →
    ∀ x ∈ s.2, x.type = .pull → x.streamName = msg.streamName → x.uid = msg.uid.toUInt64
  | _ => True

/-- The entry of a stream that exists or existed. -/
def entryOf (m : RtcStreamManager) (i : ℕ) : Option Entry :=
  (m.memory.get? i).map fun stream => ⟨stream.type, stream.uid, stream.streamName, i⟩

/-- The entries of the streams in the maps. -/
def entries (m : RtcStreamManager) : Directory :=
  {x | m.findStream x.type x.streamName = some x.number ∧ m.entryOf x.number = some x}

theorem entryOf_eq_some {m : RtcStreamManager} {i : ℕ} {x : Entry} :
    m.entryOf i = some x ↔ ∃ stream, m.memory.get? i = some stream ∧ x.type = stream.type ∧
      x.uid = stream.uid ∧ x.streamName = stream.streamName ∧ x.number = i := by
  unfold entryOf
  rw [Option.map_eq_some_iff]
  refine exists_congr fun stream => and_congr_right fun _ => ⟨?_, fun ⟨ht, hu, hn, hi⟩ => ?_⟩
  · rintro rfl
    exact ⟨rfl, rfl, rfl, rfl⟩
  · rw [← ht, ← hu, ← hn, ← hi]

theorem Consistent.mem_entries {m : RtcStreamManager} (h : m.Consistent) (x : Entry) :
    x ∈ m.entries ↔ m.memory.Alive x.number ∧ m.entryOf x.number = some x := by
  refine ⟨fun ⟨hf, he⟩ => ⟨(h.registered _ _ _ hf).1, he⟩, fun ⟨ha, he⟩ => ⟨?_, he⟩⟩
  obtain ⟨stream, hs, ht, -, hn, -⟩ := entryOf_eq_some.mp he
  obtain ⟨stream', hs', hf⟩ := h.find_of_alive ha
  obtain rfl : stream = stream' := Option.some.inj (hs.symm.trans hs')
  rw [ht, hn]
  exact hf

/-- A stream of a map has an entry under its name. -/
theorem Keyed.exists_entry {m : RtcStreamManager} (h : m.Keyed) {type : RtcStreamType}
    {streamName : String} {i : ℕ} (hi : m.findStream type streamName = some i) :
    ∃ x ∈ m.entries, x.type = type ∧ x.streamName = streamName ∧ x.number = i ∧
      some x.uid = (m.memory.get? i).map RtcStream.uid := by
  obtain ⟨-, stream, hs, rfl, rfl⟩ := h.registered _ _ _ hi
  refine ⟨⟨stream.type, stream.uid, stream.streamName, i⟩, ⟨hi, ?_⟩, rfl, rfl, rfl, ?_⟩
  · exact entryOf_eq_some.mpr ⟨stream, hs, rfl, rfl, rfl, rfl⟩
  · rw [hs, Option.map_some]

theorem namedBy_iff {m : RtcStreamManager} {x : Entry} (ha : m.memory.Alive x.number)
    (he : m.entryOf x.number = some x) (type : RtcStreamType) (uid : UInt64) (streamName : String) :
    m.NamedBy type uid streamName x.number ↔ x.Named type uid streamName := by
  obtain ⟨stream, hs, ht, hu, hn, -⟩ := entryOf_eq_some.mp he
  refine ⟨fun ⟨_, stream', hs', hb⟩ => ?_, fun ⟨ht', hu', hn'⟩ => ⟨ha, stream, hs, ?_⟩⟩
  · obtain rfl : stream = stream' := Option.some.inj (hs.symm.trans hs')
    exact ⟨ht.trans hb.1, hu.trans hb.2.1, hn.trans hb.2.2⟩
  · exact ⟨ht.symm.trans ht', hu.symm.trans hu', hn.symm.trans hn'⟩

/-! Removals and signals leave type, user and name of every stream alone. -/

theorem entryOf_dropStream (m : RtcStreamManager) (type : RtcStreamType) (streamName : String)
    (i : ℕ) : (m.dropStream type streamName i).entryOf = m.entryOf := by
  funext j
  rw [entryOf, entryOf, memory_dropStream, Heap.get?_free]

theorem entryOf_removeNamed (m : RtcStreamManager) (type : RtcStreamType) (uid : UInt64)
    (streamName : String) : (m.removeNamed type uid streamName).entryOf = m.entryOf := by
  rcases m.removeNamed_cases type uid streamName with ⟨he, -⟩ | ⟨i, -, -, he⟩
  · rw [he]
  · rw [he, entryOf_dropStream]

theorem entryOf_removeStream (m : RtcStreamManager) (i : ℕ) : (m.removeStream i).entryOf = m.entryOf := by
  cases hs : m.memory.get? i with
  | none => simp [removeStream, hs]
  | some stream => rw [removeStream_eq hs, entryOf_removeNamed]

theorem entryOf_modify (m : RtcStreamManager) (i : ℕ) {f : RtcStream → RtcStream}
    (hf : ∀ s, (f s).type = s.type ∧ (f s).uid = s.uid ∧ (f s).streamName = s.streamName) :
    ({ m with memory := m.memory.modify i f } : RtcStreamManager).entryOf = m.entryOf := by
  funext j
  show ((m.memory.modify i f).get? j).map _ = (m.memory.get? j).map _
  rw [Heap.get?_modify]
  split
  · rw [Option.map_map]
    apply congrArg (Option.map · _)
    funext s
    rw [Function.comp_apply, (hf s).1, (hf s).2.1, (hf s).2.2]
  · rfl

theorem entryOf_addStream (m : RtcStreamManager) (type : RtcStreamType) (streamName : String)
    (stream : RtcStream) (i : ℕ) : (m.addStream type streamName stream).entryOf i =
      if i = m.memory.size then
        some ⟨stream.type, stream.uid, stream.streamName, m.memory.size⟩
      else m.entryOf i := by
  rw [entryOf, entryOf, memory_addStream, Heap.get?_alloc]
  split
  · rename_i hi
    rw [hi, Option.map_some]
  · rfl

theorem entryOf_streamConnectionState (m : RtcStreamManager) (i : ℕ) (state : PeerConnectionState) :
    (m.streamConnectionState i state).entryOf = m.entryOf := by
  unfold streamConnectionState onConnectionState
  cases m.memory.get? i with
  | none => rfl
  | some stream =>
    dsimp only
    split_ifs
    · rfl
    · rw [entryOf_removeStream]
      exact m.entryOf_modify i fun _ => ⟨rfl, rfl, rfl⟩
    · exact m.entryOf_modify i fun _ => ⟨rfl, rfl, rfl⟩

theorem entryOf_iceTimeout (m : RtcStreamManager) (i : ℕ) :
    (m.iceTimeout i).entryOf = m.entryOf := by
  unfold iceTimeout onStreamException
  cases m.memory.get? i with
  | none => rfl
  | some stream =>
    dsimp only
    split_ifs
    · rw [entryOf_removeStream]
      exact m.entryOf_modify i fun _ => ⟨rfl, rfl, rfl⟩
    · exact m.entryOf_modify i fun _ => ⟨rfl, rfl, rfl⟩
    · rfl

theorem entryOf_step (m : RtcStreamManager) (e : Event) (hcreates : e.creates = false) :
    (m.step e).entryOf = m.entryOf := by
  cases e with
  | createPush msg outcome => cases hcreates
  | createPull msg outcome => cases hcreates
  | stopPush uid streamName => exact m.entryOf_removeNamed .push uid streamName
  | stopPull uid streamName => exact m.entryOf_removeNamed .pull uid streamName
  | connectionState i state =>
    show (if m.memory.Alive i then m.streamConnectionState i state else m).entryOf = m.entryOf
    split
    · exact m.entryOf_streamConnectionState i state
    · rfl
  | iceTimeout i =>
    show (if m.memory.Alive i then m.iceTimeout i else m).entryOf = m.entryOf
    split
    · exact m.entryOf_iceTimeout i
    · rfl

/-! How the entries change when the maps stay exact. -/

/-- Removals take away the entries of the deleted streams. -/
theorem Consistent.entries_of_removal {m m' : RtcStreamManager} (h : m.Consistent)
    (h' : m'.Consistent) (he : m'.entryOf = m.entryOf) {P : Entry → Prop}
    (halive : ∀ x, m.memory.Alive x.number → m.entryOf x.number = some x →
      (m'.memory.Alive x.number ↔ ¬P x)) (hsub : ∀ i, m'.memory.Alive i → m.memory.Alive i) :
    m'.entries = {x ∈ m.entries | ¬P x} := by
  ext x
  show x ∈ m'.entries ↔ x ∈ m.entries ∧ ¬P x
  rw [h'.mem_entries, h.mem_entries, he]
  refine ⟨fun ⟨ha, hx⟩ => ?_, fun ⟨⟨ha, hx⟩, hp⟩ => ⟨(halive x ha hx).mpr hp, hx⟩⟩
  exact ⟨⟨hsub _ ha, hx⟩, (halive x (hsub _ ha) hx).mp ha⟩

theorem Consistent.entries_removeNamed {m : RtcStreamManager} (h : m.Consistent)
    (type : RtcStreamType) (uid : UInt64) (streamName : String) :
    (m.removeNamed type uid streamName).entries =
      {x ∈ m.entries | ¬x.Named type uid streamName} := by
  obtain ⟨hc, halive⟩ := h.removeNamed type uid streamName
  apply h.entries_of_removal hc (m.entryOf_removeNamed type uid streamName)
  · intro x ha hx
    rw [halive, namedBy_iff ha hx]
    exact and_iff_right ha
  · exact fun i hi => ((halive i).mp hi).1

/-- Signals and timers take away the entries of the streams that they end. -/
theorem Consistent.entries_step {m : RtcStreamManager} (h : m.Consistent) (e : Event)
    (hcreates : e.creates = false) :
    (m.step e).entries = {x ∈ m.entries | ¬m.EndedBy e x.number} := by
  obtain ⟨hc, halive⟩ := h.alive_step e hcreates
  apply h.entries_of_removal hc (m.entryOf_step e hcreates)
  · intro x ha _
    rw [halive]
    exact and_iff_right ha
  · exact fun i hi => ((halive i).mp hi).1

theorem Consistent.entries_dropPushStream {m : RtcStreamManager} (h : m.Consistent)
    (streamName : String) : (m.dropPushStream streamName).entries =
      {x ∈ m.entries | ¬(x.type = .push ∧ x.streamName = streamName)} := by
  have hc := h.dropPushStream streamName
  unfold RtcStreamManager.dropPushStream at hc ⊢
  cases hf : m.findPushStream streamName with
  | none =>
    ext x
    refine ⟨fun hx => ⟨hx, fun ⟨ht, hn⟩ => ?_⟩, fun hx => hx.1⟩
    have hx' : m.findStream .push streamName = some x.number := by
      rw [← ht, ← hn]
      exact hx.1
    exact nomatch hf.symm.trans hx'
  | some i =>
    rw [hf] at hc
    apply h.entries_of_removal hc (m.entryOf_dropStream .push streamName i)
    · intro x ha hx
      show (m.dropStream .push streamName i).memory.Alive x.number ↔ _
      rw [memory_dropStream, Heap.alive_free, and_iff_right ha]
      refine not_congr ⟨fun hi => ?_, fun ⟨ht, hn⟩ => ?_⟩
      · exact h.place_unique ((h.mem_entries x).mpr ⟨ha, hx⟩).1 (hi ▸ hf)
      · have hx' : m.findStream .push streamName = some x.number := by
          rw [← ht, ← hn]
          exact ((h.mem_entries x).mpr ⟨ha, hx⟩).1
        exact Option.some.inj (hx'.symm.trans hf)
    · intro j hj
      rw [memory_dropStream, Heap.alive_free] at hj
      exact hj.1

theorem Consistent.entries_addStream {m : RtcStreamManager} (h : m.Consistent)
    (stream : RtcStream) (hnone : m.findStream stream.type stream.streamName = none) :
    (m.addStream stream.type stream.streamName stream).entries =
      m.entries ∪ {⟨stream.type, stream.uid, stream.streamName, m.memory.size⟩} := by
  ext x
  rw [(h.addStream stream hnone).mem_entries, h.toKeyed.alive_addStream, Set.mem_union,
    h.mem_entries, Set.mem_singleton_iff]
  rw [entryOf_addStream]
  by_cases hx : x.number = m.memory.size
  · rw [if_pos hx, and_iff_right (Or.inl hx)]
    refine ⟨fun he => Or.inr (Option.some.inj he).symm, fun he => ?_⟩
    rcases he with ⟨ha, -⟩ | rfl
    · exact absurd ha.1 (hx ▸ Nat.lt_irrefl _)
    · rfl
  · rw [if_neg hx]
    refine ⟨fun ⟨ha, he⟩ => Or.inl ⟨ha.resolve_left hx, he⟩, fun he => ?_⟩
    rcases he with ⟨ha, he⟩ | rfl
    · exact ⟨Or.inr ha, he⟩
    · exact absurd rfl hx

/-- The directory that the requests imply is the one that the maps have. -/
structure Follows (s : RtcStreamManager × Directory) : Prop where
  consistent : s.1.Consistent
  entries : s.2 = s.1.entries

theorem follows_empty : Follows ({}, ∅) where
  consistent := consistent_empty
  entries := by
    ext x
    refine ⟨fun hx => absurd hx (Set.notMem_empty x), fun hx => ?_⟩
    exact absurd (keyed_empty.registered _ _ _ hx.1).1.1 (Nat.not_lt_zero _)

/-- The push stream of a name in the directory is the one that the map has. -/
theorem Follows.publishes_iff {s : RtcStreamManager × Directory} (h : Follows s)
    (streamName : String) (p : ℕ) :
    s.2.Publishes streamName p ↔ s.1.findPushStream streamName = some p := by
  rw [h.entries]
  refine ⟨fun ⟨x, hx, ht, hn, hp⟩ => ?_, fun hp => ?_⟩
  · rw [← hn, ← hp]
    show s.1.findStream .push x.streamName = some x.number
    rw [← ht]
    exact hx.1
  · obtain ⟨x, hx, ht, hn, hi, -⟩ := h.consistent.toKeyed.exists_entry hp
    exact ⟨x, hx, ht, hn, hi⟩

theorem Follows.subscribes_iff {s : RtcStreamManager × Directory} (h : Follows s)
    (streamName : String) (q : ℕ) :
    s.2.Subscribes streamName q ↔ s.1.findPullStream streamName = some q := by
  rw [h.entries]
  refine ⟨fun ⟨x, hx, ht, hn, hq⟩ => ?_, fun hq => ?_⟩
  · rw [← hn, ← hq]
    show s.1.findStream .pull x.streamName = some x.number
    rw [← ht]
    exact hx.1
  · obtain ⟨x, hx, ht, hn, hi, -⟩ := h.consistent.toKeyed.exists_entry hq
    exact ⟨x, hx, ht, hn, hi⟩

/-- With one subscriber a name the condition on creating events holds. -/
theorem Follows.createsCleanly {s : RtcStreamManager × Directory} (h : Follows s)
    {e : SuccessfulEvent} (hc : OneSubscriber s e) : s.1.CreatesCleanly e.1 := by
  obtain ⟨e, he⟩ := e
  cases e with
  | createPush msg outcome => exact he
  | createPull msg outcome =>
    intro hsome
    obtain ⟨p, hp⟩ := Option.isSome_iff_exists.mp hsome
    refine ⟨he, fun i hi => ?_⟩
    obtain ⟨x, hx, ht, hn, -, hu⟩ := h.consistent.toKeyed.exists_entry hi
    rw [← hu, hc ⟨p, (h.publishes_iff _ _).mpr hp⟩ x (h.entries ▸ hx) ht hn]
  | stopPush uid streamName => trivial
  | stopPull uid streamName => trivial
  | connectionState i state => trivial
  | iceTimeout i => trivial

/-- The directory and the maps change alike. -/
theorem Follows.step {s : RtcStreamManager × Directory} (h : Follows s) {e : SuccessfulEvent}
    (hc : OneSubscriber s e) : Follows (stepBoth s e) where
  consistent := h.consistent.step (h.createsCleanly hc)
  entries := by
    have hclean := h.createsCleanly hc
    obtain ⟨m, d⟩ := s
    obtain ⟨e, he⟩ := e
    obtain rfl : d = m.entries := h.entries
    have hm : m.Consistent := h.consistent
    show Directory.step m.entries m e = (m.step e).entries
    cases e with
    | createPush msg outcome =>
      obtain ⟨stream, ht, hu, hn, heq⟩ := createPushStream_eq hm.toKeyed msg outcome
      show _ = (m.createPushStream msg outcome).1.entries
      rw [heq, ← ht, ← hn, (hm.dropPushStream _).entries_addStream, hm.entries_dropPushStream,
        size_dropPushStream, ht, hu, hn]
      · rfl
      · rw [ht]
        exact findStream_dropPushStream m _
    | createPull msg outcome =>
      show _ = (m.createPullStream msg outcome).1.entries
      cases hp : m.findPushStream msg.streamName with
      | none =>
        rw [createPullStream_none outcome hp]
        exact if_neg fun ⟨p, h'⟩ => nomatch hp.symm.trans ((h.publishes_iff _ p).mp h')
      | some p =>
        have hsome : (m.findPushStream msg.streamName).isSome := by simp [hp]
        obtain ⟨stream, ht, hu, hn, heq⟩ := createPullStream_eq hm.toKeyed msg outcome hsome
        have hfree := findStream_removePullStream (hclean hsome).2
        have hcons : (m.removePullStream msg.uid.toUInt64 msg.streamName).Consistent :=
          (hm.removeNamed .pull _ _).1
        have hsize : (m.removePullStream msg.uid.toUInt64 msg.streamName).memory.size =
          m.memory.size := size_removeNamed m _ _ _
        have hentries : (m.removePullStream msg.uid.toUInt64 msg.streamName).entries =
            {x ∈ m.entries | ¬x.Named .pull msg.uid.toUInt64 msg.streamName} :=
          hm.entries_removeNamed .pull _ _
        have hadd := hcons.entries_addStream stream (by rw [ht, hn]; exact hfree)
        rw [ht, hu, hn] at hadd
        rw [heq, hadd, hentries, hsize]
        exact if_pos ⟨p, (h.publishes_iff _ p).mpr hp⟩
    | stopPush uid streamName => exact (hm.entries_removeNamed .push uid streamName).symm
    | stopPull uid streamName => exact (hm.entries_removeNamed .pull uid streamName).symm
    | connectionState i state => exact (hm.entries_step _ rfl).symm
    | iceTimeout i => exact (hm.entries_step _ rfl).symm

theorem Keyed.onRtpPacketReceived {m : RtcStreamManager} (h : m.Keyed) {streamName : String}
    {p : ℕ} (hp : m.findPushStream streamName = some p) :
    m.onRtpPacketReceived p = (m.findPullStream streamName).toList := by
  obtain ⟨-, stream, hs, ht, rfl⟩ := h.registered _ _ _ hp
  unfold RtcStreamManager.onRtpPacketReceived
  simp only [hs, ht]

theorem Keyed.onRtcpPacketReceived {m : RtcStreamManager} (h : m.Keyed) {streamName : String}
    {q : ℕ} (hq : m.findPullStream streamName = some q) :
    m.onRtcpPacketReceived q = (m.findPushStream streamName).toList := by
  obtain ⟨-, stream, hs, ht, rfl⟩ := h.registered _ _ _ hq
  unfold RtcStreamManager.onRtcpPacketReceived
  simp only [hs, ht]

/-- Maps that the directory describes forward as it says. -/
theorem Follows.forwards {s : RtcStreamManager × Directory} (h : Follows s) : Forwards s where
  rtp streamName p q hp hq := by
    rw [h.publishes_iff] at hp
    rw [h.subscribes_iff] at hq
    rw [h.consistent.toKeyed.onRtpPacketReceived hp, hq]
    exact List.count_singleton_self
  others streamName p q hp hq := by
    rw [h.publishes_iff] at hp
    rw [h.subscribes_iff] at hq
    rw [h.consistent.toKeyed.onRtpPacketReceived hp, Option.mem_toList]
    exact hq
  rtcp streamName p q hp hq := by
    rw [h.publishes_iff] at hp
    rw [h.subscribes_iff] at hq
    rw [h.consistent.toKeyed.onRtcpPacketReceived hq, hp]
    rfl

theorem findStream_removePullStream_push (m : RtcStreamManager) (uid : UInt64)
    (streamName : String) :
    (m.removePullStream uid streamName).findStream .push streamName =
      m.findStream .push streamName := by
  rcases m.removeNamed_cases .pull uid streamName with ⟨he, -⟩ | ⟨i, -, -, he⟩
  · exact congrArg (findStream · .push streamName) he
  · exact (congrArg (findStream · .push streamName) he).trans
      ((m.findStream_dropStream .pull .push streamName streamName i).trans
        (if_neg fun hp => nomatch hp.1))

/-- After a second user's create-pull request the first one's packets are lost. -/
theorem Follows.oneSubscriber {s : RtcStreamManager × Directory} (h : Follows s)
    {e : SuccessfulEvent} (hf : Forwards (stepBoth s e)) : OneSubscriber s e := by
  obtain ⟨m, d⟩ := s
  obtain ⟨e, he⟩ := e
  cases e with
  | createPush msg outcome => trivial
  | createPull msg outcome =>
    rintro ⟨p, hp⟩ x hx ht hn
    by_contra hu
    have hd : (stepBoth (m, d) ⟨.createPull msg outcome, he⟩).2 =
        {x ∈ d | ¬x.Named .pull msg.uid.toUInt64 msg.streamName} ∪
          {⟨.pull, msg.uid.toUInt64, msg.streamName, m.memory.size⟩} := if_pos ⟨p, hp⟩
    have hpush := (h.publishes_iff _ _).mp hp
    have hcount := hf.rtp msg.streamName p x.number ?_ ?_
    · have hkeyed := h.consistent.toKeyed.step (.createPull msg outcome)
      obtain ⟨stream, -, -, -, heq⟩ := createPullStream_eq h.consistent.toKeyed msg outcome
        (Option.isSome_iff_exists.mpr ⟨p, hpush⟩)
      have hsize : (m.removePullStream msg.uid.toUInt64 msg.streamName).memory.size =
        m.memory.size := size_removeNamed m _ _ _
      have hpush' : (m.step (.createPull msg outcome)).findPushStream msg.streamName = some p := by
        have hremoved := findStream_removePullStream_push m msg.uid.toUInt64 msg.streamName
        show (m.createPullStream msg outcome).1.findStream .push msg.streamName = some p
        rw [heq, findStream_addStream, if_neg fun hp => nomatch hp.1]
        exact hremoved.trans hpush
      have hpull' : (m.step (.createPull msg outcome)).findPullStream msg.streamName =
          some m.memory.size := by
        show (m.createPullStream msg outcome).1.findStream .pull msg.streamName = _
        rw [heq, findStream_addStream, if_pos ⟨rfl, rfl⟩, hsize]
      have hnew : x.number ≠ m.memory.size := by
        rw [h.entries] at hx
        exact Nat.ne_of_lt ((h.consistent.mem_entries x).mp hx).1.1
      have hlost : (m.step (.createPull msg outcome)).onRtpPacketReceived p = [m.memory.size] := by
        rw [hkeyed.onRtpPacketReceived hpush', hpull']
        rfl
      rw [show (stepBoth (m, d) ⟨.createPull msg outcome, he⟩).1 = m.step (.createPull msg outcome)
        from rfl, hlost, List.count_singleton, if_neg (by simpa using Ne.symm hnew)] at hcount
      exact Nat.zero_ne_one hcount
    · obtain ⟨y, hy, hyt, hyn, hyp⟩ := hp
      refine ⟨y, hd ▸ Or.inl ⟨hy, fun hnamed => ?_⟩, hyt, hyn, hyp⟩
      exact nomatch hyt.symm.trans hnamed.1
    · exact ⟨x, hd ▸ Or.inl ⟨hx, fun hnamed => hu hnamed.2.1⟩, ht, hn, rfl⟩
  | stopPush uid streamName => trivial
  | stopPull uid streamName => trivial
  | connectionState i state => trivial
  | iceTimeout i => trivial

theorem Follows.allAfter_forwards_iff {s : RtcStreamManager × Directory} (h : Follows s)
    (es : List SuccessfulEvent) :
    Runs.AllAfter stepBoth Forwards s es ↔ Runs.Along stepBoth OneSubscriber s es :=
  Runs.along_iff (fun _ _ h hc => h.step hc)
    (fun _ _ h => ⟨h.oneSubscriber, fun hc => (h.step hc).forwards⟩) h es

/-- In every history of successful requests the packets go where the directory says, as
long as no name gets a second subscribing user and only so long. -/
theorem forwards_iff (es : List SuccessfulEvent) :
    Runs.AllAfter stepBoth Forwards ({}, ∅) es ↔ Runs.Along stepBoth OneSubscriber ({}, ∅) es :=
  follows_empty.allAfter_forwards_iff es

/-- A publisher and two subscribers. -/
def twoSubscribers : List SuccessfulEvent :=
  [⟨.createPush { uid := 1, streamName := "n" } {}, List.not_mem_nil⟩,
   ⟨.createPull { uid := 2, streamName := "n" } {}, List.not_mem_nil⟩,
   ⟨.createPull { uid := 3, streamName := "n" } {}, List.not_mem_nil⟩]

/-- The publisher's packets reach the second subscriber only. -/
theorem twoSubscribers_lose_first :
    ¬Runs.AllAfter stepBoth Forwards ({}, ∅) twoSubscribers ∧
      (Runs.run stepBoth ({}, ∅) twoSubscribers).1.onRtpPacketReceived 0 = [2] := by
  refine ⟨fun hall => ?_, by decide⟩
  obtain ⟨-, hsecond, hthird, -⟩ := (follows_empty.allAfter_forwards_iff _).mp hall
  have hf := (follows_empty.step (e := twoSubscribers[0]) trivial).step hsecond
  have hmem := hf.entries ▸ show (⟨.pull, 2, "n", 1⟩ : Entry) ∈ entries _ from ⟨by decide, rfl⟩
  have huid := hthird ⟨0, (hf.publishes_iff _ _).mpr (by decide)⟩ _ hmem rfl rfl
  exact absurd huid (by decide)

end RtcStreamManager
end Stream
end XrtcServer
