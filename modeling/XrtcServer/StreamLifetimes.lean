import XrtcServer.RtcStreamManager

/-! Which streams the manager deletes: exactly when its two maps contain just the
streams that exist, and a stop or a failure deletes the stream that it is about. -/
namespace XrtcServer
namespace Stream
open ObjectHeap

namespace RtcStreamManager

/-- The stream stands in one of the maps. -/
def Registered (m : RtcStreamManager) (i : ℕ) : Prop :=
  ∃ type streamName, m.findStream type streamName = some i

/-- The maps together contain exactly the streams that exist. -/
def Exact (m : RtcStreamManager) : Prop := ∀ i, m.memory.Alive i ↔ m.Registered i

/-- The stream exists and has this type, user and name. -/
def NamedBy (m : RtcStreamManager) (type : RtcStreamType) (uid : UInt64) (streamName : String)
    (i : ℕ) : Prop :=
  m.memory.Alive i ∧ ∃ stream, m.memory.get? i = some stream ∧ stream.type = type ∧
    stream.uid = uid ∧ stream.streamName = streamName

/-- The stream that a stop is for, or that fails or times out, a new one included. -/
def EndedBy (m : RtcStreamManager) (e : Event) (i : ℕ) : Prop :=
  match e with
  | .createPush _ outcome => i = m.memory.size ∧ .failed ∈ outcome.states
  | .createPull msg outcome =>
    (m.findPushStream msg.streamName).isSome ∧ i = m.memory.size ∧ .failed ∈ outcome.states
  | .stopPush uid streamName => m.NamedBy .push uid streamName i
  | .stopPull uid streamName => m.NamedBy .pull uid streamName i
  | .connectionState j state => i = j ∧ state = .failed ∧ m.memory.Alive j ∧
    ∃ stream, m.memory.get? j = some stream ∧ stream.state ≠ .failed
  | .iceTimeout j => i = j ∧ m.memory.Alive j ∧
    ∃ stream, m.memory.get? j = some stream ∧ stream.iceTimeoutArmed = true ∧
      stream.state ≠ .connected

/-- Creating a stream may replace another one, no other event does. -/
def Event.creates : Event → Bool
  | .createPush _ _ => true
  | .createPull _ _ => true
  | _ => false

/-- After the event the maps are exact, the streams that it ends are gone, and, unless
it creates one, all others are still there. -/
structure EndsExactly (m : RtcStreamManager) (e : Event) : Prop where
  exact : (m.step e).Exact
  ended : ∀ i, m.EndedBy e i → ¬(m.step e).memory.Alive i
  kept : e.creates = false → ∀ i, m.memory.Alive i → ¬m.EndedBy e i → (m.step e).memory.Alive i

/-- No stream fails while it is created, and a new pull stream finds no pull stream of
another user under its name. -/
def CreatesCleanly (m : RtcStreamManager) (e : Event) : Prop :=
  match e with
  | .createPush _ outcome => .failed ∉ outcome.states
  | .createPull msg outcome => (m.findPushStream msg.streamName).isSome →
    .failed ∉ outcome.states ∧ ∀ i, m.findPullStream msg.streamName = some i →
      (m.memory.get? i).map RtcStream.uid = some msg.uid.toUInt64
  | _ => True

/-- What the manager keeps while streams are created cleanly. -/
structure Consistent (m : RtcStreamManager) : Prop extends Keyed m where
  exact : m.Exact

theorem consistent_empty : ({} : RtcStreamManager).Consistent where
  toKeyed := keyed_empty
  exact i := by
    refine ⟨fun h => absurd h.1 (Nat.not_lt_zero i), ?_⟩
    rintro ⟨type, streamName, hi⟩
    exact (keyed_empty.registered _ _ _ hi).1

/-- A stream that exists stands under its own name. -/
theorem Consistent.find_of_alive {m : RtcStreamManager} (h : m.Consistent) {i : ℕ}
    (ha : m.memory.Alive i) : ∃ stream, m.memory.get? i = some stream ∧
      m.findStream stream.type stream.streamName = some i := by
  obtain ⟨type, streamName, hi⟩ := (h.exact i).mp ha
  obtain ⟨-, stream, hs, ht, hn⟩ := h.registered _ _ _ hi
  exact ⟨stream, hs, by rw [ht, hn]; exact hi⟩

theorem Consistent.dropStream {m : RtcStreamManager} (h : m.Consistent) {type : RtcStreamType}
    {streamName : String} {i : ℕ} (hi : m.findStream type streamName = some i) :
    (m.dropStream type streamName i).Consistent where
  toKeyed := h.toKeyed.dropStream hi
  exact j := by
    rw [memory_dropStream, Heap.alive_free, h.exact j]
    simp only [Registered, findStream_dropStream]
    refine ⟨fun ⟨⟨t, n, hj⟩, hne⟩ => ⟨t, n, ?_⟩, fun ⟨t, n, hj⟩ => ?_⟩
    · rw [if_neg]
      · exact hj
      · rintro ⟨rfl, rfl⟩
        exact hne (Option.some.inj (hj.symm.trans hi))
    · split at hj
      · cases hj
      · rename_i hp
        exact ⟨⟨t, n, hj⟩, fun he => hp (h.place_unique (he ▸ hj) hi)⟩

theorem Consistent.modify {m : RtcStreamManager} (h : m.Consistent) (i : ℕ)
    {f : RtcStream → RtcStream}
    (hf : ∀ s, (f s).type = s.type ∧ (f s).streamName = s.streamName) :
    ({ m with memory := m.memory.modify i f } : RtcStreamManager).Consistent where
  toKeyed := h.toKeyed.modify i hf
  exact j := by
    rw [Heap.alive_modify, h.exact j]
    simp [Registered, findStream]

/-- Removal by user and name deletes the streams of that type, user and name. -/
theorem Consistent.removeNamed {m : RtcStreamManager} (h : m.Consistent) (type : RtcStreamType)
    (uid : UInt64) (streamName : String) :
    (m.removeNamed type uid streamName).Consistent ∧
    ∀ i, (m.removeNamed type uid streamName).memory.Alive i ↔
      m.memory.Alive i ∧ ¬m.NamedBy type uid streamName i := by
  have hfind : ∀ i, m.NamedBy type uid streamName i → m.findStream type streamName = some i ∧
      (m.memory.get? i).map RtcStream.uid = some uid := by
    rintro i ⟨ha, stream, hs, rfl, rfl, rfl⟩
    obtain ⟨stream', hs', hi⟩ := h.find_of_alive ha
    obtain rfl : stream = stream' := Option.some.inj (hs.symm.trans hs')
    exact ⟨hi, by simp [hs]⟩
  rcases m.removeNamed_cases type uid streamName with ⟨he, hn⟩ | ⟨i, hi, hu, he⟩
  · rw [he]
    refine ⟨h, fun i => ⟨fun ha => ⟨ha, fun hb => ?_⟩, fun hh => hh.1⟩⟩
    exact hn i (hfind i hb).1 (hfind i hb).2
  · rw [he]
    refine ⟨h.dropStream hi, fun j => ?_⟩
    rw [memory_dropStream, Heap.alive_free]
    refine and_congr_right fun ha => not_congr ⟨fun hj => ?_, fun hb => ?_⟩
    · obtain ⟨-, stream, hs, ht, hn⟩ := h.registered _ _ _ hi
      rw [hj]
      refine ⟨hj ▸ ha, stream, hs, ht, ?_, hn⟩
      simpa [hs] using hu
    · exact Option.some.inj ((hfind j hb).1.symm.trans hi)

/-- Removing a stream that exists deletes that stream. -/
theorem Consistent.removeStream {m : RtcStreamManager} (h : m.Consistent) {i : ℕ}
    (ha : m.memory.Alive i) : (m.removeStream i).Consistent ∧
      ∀ j, (m.removeStream i).memory.Alive j ↔ m.memory.Alive j ∧ j ≠ i := by
  obtain ⟨stream, hs, hi⟩ := h.find_of_alive ha
  rw [removeStream_eq hs]
  obtain ⟨hc, halive⟩ := h.removeNamed stream.type stream.uid stream.streamName
  refine ⟨hc, fun j => (halive j).trans (and_congr_right fun hj => not_congr ⟨fun hb => ?_, ?_⟩)⟩
  · obtain ⟨-, stream', hs', ht, -, hn⟩ := hb
    obtain ⟨stream'', hs'', hj'⟩ := h.find_of_alive hj
    obtain rfl : stream' = stream'' := Option.some.inj (hs'.symm.trans hs'')
    rw [ht, hn] at hj'
    exact Option.some.inj (hj'.symm.trans hi)
  · rintro rfl
    exact ⟨hj, stream, hs, rfl, rfl, rfl⟩

theorem Consistent.addStream {m : RtcStreamManager} (h : m.Consistent) (stream : RtcStream)
    (hnone : m.findStream stream.type stream.streamName = none) :
    (m.addStream stream.type stream.streamName stream).Consistent where
  toKeyed := h.toKeyed.addStream stream
  exact i := by
    rw [h.toKeyed.alive_addStream, h.exact i]
    simp only [Registered, findStream_addStream]
    refine ⟨fun hi => ?_, fun ⟨t, n, hi⟩ => ?_⟩
    · rcases hi with rfl | ⟨t, n, hi⟩
      · exact ⟨stream.type, stream.streamName, by simp⟩
      · refine ⟨t, n, ?_⟩
        rw [if_neg]
        · exact hi
        · rintro ⟨rfl, rfl⟩
          rw [hnone] at hi
          cases hi
    · split at hi
      · exact Or.inl (Option.some.inj hi).symm
      · exact Or.inr ⟨t, n, hi⟩

theorem Consistent.dropPushStream {m : RtcStreamManager} (h : m.Consistent) (streamName : String) :
    (m.dropPushStream streamName).Consistent := by
  unfold RtcStreamManager.dropPushStream
  cases hf : m.findPushStream streamName with
  | none => exact h
  | some i => exact h.dropStream hf

theorem size_dropPushStream (m : RtcStreamManager) (streamName : String) :
    (m.dropPushStream streamName).memory.size = m.memory.size := by
  unfold dropPushStream
  cases m.findPushStream streamName with
  | none => rfl
  | some i => rw [memory_dropStream, Heap.size_free]

theorem size_removeNamed (m : RtcStreamManager) (type : RtcStreamType) (uid : UInt64)
    (streamName : String) : (m.removeNamed type uid streamName).memory.size = m.memory.size := by
  rcases m.removeNamed_cases type uid streamName with ⟨he, -⟩ | ⟨i, -, -, he⟩
  · rw [he]
  · rw [he, memory_dropStream, Heap.size_free]

/-- An event about a stream that has a state or a timer. -/
theorem Consistent.connectionState {m : RtcStreamManager} (h : m.Consistent) (i : ℕ)
    (state : PeerConnectionState) :
    (m.step (.connectionState i state)).Consistent ∧
    ∀ j, (m.step (.connectionState i state)).memory.Alive j ↔
      m.memory.Alive j ∧ ¬m.EndedBy (.connectionState i state) j := by
  show (if m.memory.Alive i then m.streamConnectionState i state else m).Consistent ∧
    ∀ j, (if m.memory.Alive i then m.streamConnectionState i state else m).memory.Alive j ↔ _
  by_cases ha : m.memory.Alive i
  · rw [if_pos ha]
    obtain ⟨stream, hs, -⟩ := h.find_of_alive ha
    unfold streamConnectionState onConnectionState
    rw [hs]
    dsimp only
    by_cases hsame : stream.state = state
    · rw [if_pos hsame]
      refine ⟨h, fun j => ⟨fun hj => ⟨hj, ?_⟩, fun hj => hj.1⟩⟩
      rintro ⟨-, rfl, -, stream', hs', hne⟩
      obtain rfl : stream = stream' := Option.some.inj (hs.symm.trans hs')
      exact hne hsame
    · rw [if_neg hsame]
      set m' : RtcStreamManager := { m with memory := m.memory.modify i fun s =>
        { s with state, iceTimeoutArmed :=
          s.iceTimeoutArmed && decide (state ≠ PeerConnectionState.connected) } } with hm'
      have hc : m'.Consistent := h.modify i fun _ => ⟨rfl, rfl⟩
      have halive : ∀ j, m'.memory.Alive j ↔ m.memory.Alive j := fun j => Heap.alive_modify
      by_cases hf : state = .failed
      · rw [if_pos hf]
        obtain ⟨hc', halive'⟩ := hc.removeStream ((halive i).mpr ha)
        refine ⟨hc', fun j => ?_⟩
        rw [halive', halive]
        refine and_congr_right fun _ => not_congr ⟨fun hj => ?_, fun hj => hj.1⟩
        exact ⟨hj, hf, ha, stream, hs, fun hst => hsame (hst.trans hf.symm)⟩
      · rw [if_neg hf]
        refine ⟨hc, fun j => ?_⟩
        rw [halive]
        exact ⟨fun hj => ⟨hj, fun hb => hf hb.2.1⟩, fun hj => hj.1⟩
  · rw [if_neg ha]
    exact ⟨h, fun j => ⟨fun hj => ⟨hj, fun hb => ha hb.2.2.1⟩, fun hj => hj.1⟩⟩

theorem Consistent.iceTimeout {m : RtcStreamManager} (h : m.Consistent) (i : ℕ) :
    (m.step (.iceTimeout i)).Consistent ∧
    ∀ j, (m.step (.iceTimeout i)).memory.Alive j ↔
      m.memory.Alive j ∧ ¬m.EndedBy (.iceTimeout i) j := by
  show (if m.memory.Alive i then m.iceTimeout i else m).Consistent ∧
    ∀ j, (if m.memory.Alive i then m.iceTimeout i else m).memory.Alive j ↔ _
  by_cases ha : m.memory.Alive i
  · rw [if_pos ha]
    obtain ⟨stream, hs, -⟩ := h.find_of_alive ha
    have hsame : ∀ stream', m.memory.get? i = some stream' → stream' = stream := fun stream' hs' =>
      Option.some.inj (hs'.symm.trans hs)
    unfold RtcStreamManager.iceTimeout onStreamException
    rw [hs]
    dsimp only
    by_cases harmed : stream.iceTimeoutArmed = true
    · rw [if_pos harmed]
      set m' : RtcStreamManager := { m with memory := m.memory.modify i fun s =>
        { s with iceTimeoutArmed := false } } with hm'
      have hc : m'.Consistent := h.modify i fun _ => ⟨rfl, rfl⟩
      have halive : ∀ j, m'.memory.Alive j ↔ m.memory.Alive j := fun j => Heap.alive_modify
      by_cases hst : stream.state ≠ .connected
      · rw [if_pos hst]
        obtain ⟨hc', halive'⟩ := hc.removeStream ((halive i).mpr ha)
        refine ⟨hc', fun j => ?_⟩
        rw [halive', halive]
        refine and_congr_right fun _ => not_congr ⟨fun hj => ?_, fun hj => hj.1⟩
        exact ⟨hj, ha, stream, hs, harmed, hst⟩
      · rw [if_neg hst]
        refine ⟨hc, fun j => ?_⟩
        rw [halive]
        refine ⟨fun hj => ⟨hj, ?_⟩, fun hj => hj.1⟩
        rintro ⟨-, -, stream', hs', -, hne⟩
        exact hst (hsame stream' hs' ▸ hne)
    · rw [if_neg harmed]
      refine ⟨h, fun j => ⟨fun hj => ⟨hj, ?_⟩, fun hj => hj.1⟩⟩
      rintro ⟨-, -, stream', hs', hb, -⟩
      exact harmed (hsame stream' hs' ▸ hb)
  · rw [if_neg ha]
    exact ⟨h, fun j => ⟨fun hj => ⟨hj, fun hb => ha hb.2.1⟩, fun hj => hj.1⟩⟩

/-- Stops, signals and timers delete just the streams that they end. -/
theorem Consistent.alive_step {m : RtcStreamManager} (h : m.Consistent) (e : Event)
    (hcreates : e.creates = false) : (m.step e).Consistent ∧
      ∀ i, (m.step e).memory.Alive i ↔ m.memory.Alive i ∧ ¬m.EndedBy e i := by
  cases e with
  | createPush msg outcome => cases hcreates
  | createPull msg outcome => cases hcreates
  | stopPush uid streamName => exact h.removeNamed .push uid streamName
  | stopPull uid streamName => exact h.removeNamed .pull uid streamName
  | connectionState i state => exact h.connectionState i state
  | iceTimeout i => exact h.iceTimeout i

/-- After the streams of the new stream's user are removed, its name is free. -/
theorem findStream_removePullStream {m : RtcStreamManager} {uid : UInt64} {streamName : String}
    (h : ∀ i, m.findPullStream streamName = some i →
      (m.memory.get? i).map RtcStream.uid = some uid) :
    (m.removePullStream uid streamName).findStream .pull streamName = none := by
  cases hf : m.findStream .pull streamName with
  | none =>
    show (m.removeNamed .pull uid streamName).findStream .pull streamName = none
    rw [removeNamed_of_noneNamed (fun i hi => by rw [hf] at hi; cases hi), hf]
  | some i =>
    rcases m.removeNamed_cases .pull uid streamName with ⟨-, hn⟩ | ⟨j, -, -, he⟩
    · exact absurd (h i hf) (hn i hf)
    · show (m.removeNamed .pull uid streamName).findStream .pull streamName = none
      rw [he, findStream_dropStream, if_pos ⟨rfl, rfl⟩]

/-- A clean event keeps the maps exact. -/
theorem Consistent.step {m : RtcStreamManager} (h : m.Consistent) {e : Event}
    (hc : m.CreatesCleanly e) : (m.step e).Consistent := by
  cases e with
  | createPush msg outcome =>
    obtain ⟨stream, ht, -, hn, heq⟩ := createPushStream_eq h.toKeyed msg outcome
    show (m.createPushStream msg outcome).1.Consistent
    rw [heq, ← ht, ← hn]
    apply (h.dropPushStream _).addStream
    rw [ht]
    exact findStream_dropPushStream m _
  | createPull msg outcome =>
    show (m.createPullStream msg outcome).1.Consistent
    cases hp : m.findPushStream msg.streamName with
    | none =>
      rw [createPullStream_none outcome hp]
      exact h
    | some p =>
      have hsome : (m.findPushStream msg.streamName).isSome := by simp [hp]
      obtain ⟨stream, ht, -, hn, heq⟩ := createPullStream_eq h.toKeyed msg outcome hsome
      have hfree := findStream_removePullStream (hc hsome).2
      rw [heq, ← ht, ← hn]
      apply (h.removeNamed .pull _ _).1.addStream
      rw [ht, hn]
      exact hfree
  | stopPush uid streamName => exact (h.alive_step _ rfl).1
  | stopPull uid streamName => exact (h.alive_step _ rfl).1
  | connectionState i state => exact (h.alive_step _ rfl).1
  | iceTimeout i => exact (h.alive_step _ rfl).1

/-- A clean create ends no stream by failure. -/
theorem CreatesCleanly.not_endedBy {m : RtcStreamManager} {e : Event} (hc : m.CreatesCleanly e)
    (hcreates : e.creates = true) (i : ℕ) : ¬m.EndedBy e i := by
  cases e with
  | createPush msg outcome => exact fun h => hc h.2
  | createPull msg outcome => exact fun h => (hc h.1).1 h.2.2
  | stopPush uid streamName => cases hcreates
  | stopPull uid streamName => cases hcreates
  | connectionState j state => cases hcreates
  | iceTimeout j => cases hcreates

theorem Consistent.endsExactly {m : RtcStreamManager} (h : m.Consistent) {e : Event}
    (hc : m.CreatesCleanly e) : m.EndsExactly e where
  exact := (h.step hc).exact
  ended i hi ha := by
    cases hcreates : e.creates with
    | true => exact hc.not_endedBy hcreates i hi
    | false => exact (((h.alive_step e hcreates).2 i).mp ha).2 hi
  kept hcreates i ha hi := ((h.alive_step e hcreates).2 i).mpr ⟨ha, hi⟩

/-- A stream that fails while it is created stays, so the event does not end it; a pull
stream that is overwritten stays too, but in no map. -/
theorem Consistent.createsCleanly {m : RtcStreamManager} (h : m.Consistent) {e : Event}
    (he : m.EndsExactly e) : m.CreatesCleanly e := by
  cases e with
  | createPush msg outcome =>
    intro hfailed
    obtain ⟨stream, ht, -, hn, heq⟩ := createPushStream_eq h.toKeyed msg outcome
    refine he.ended m.memory.size ⟨rfl, hfailed⟩ ?_
    show (m.createPushStream msg outcome).1.memory.Alive m.memory.size
    rw [heq, (h.dropPushStream _).toKeyed.alive_addStream]
    exact Or.inl (size_dropPushStream m _).symm
  | createPull msg outcome =>
    intro hsome
    obtain ⟨stream, ht, -, hn, heq⟩ := createPullStream_eq h.toKeyed msg outcome hsome
    have hsize : (m.removePullStream msg.uid.toUInt64 msg.streamName).memory.size =
      m.memory.size := size_removeNamed m _ _ _
    obtain ⟨hcons, halive⟩ := h.removeNamed .pull msg.uid.toUInt64 msg.streamName
    have hstep : ∀ i, (m.step (.createPull msg outcome)).memory.Alive i ↔
        i = m.memory.size ∨
          m.memory.Alive i ∧ ¬m.NamedBy .pull msg.uid.toUInt64 msg.streamName i := by
      intro i
      show (m.createPullStream msg outcome).1.memory.Alive i ↔ _
      rw [heq, ← halive, ← hsize]
      exact hcons.toKeyed.alive_addStream _ _ _ i
    refine ⟨fun hfailed => ?_, fun i hi => ?_⟩
    · exact he.ended m.memory.size ⟨hsome, rfl, hfailed⟩ ((hstep _).mpr (Or.inl rfl))
    · by_contra hu
      obtain ⟨ha, old, hold, hot, hon⟩ := h.registered _ _ _ hi
      have hafter : (m.step (.createPull msg outcome)).memory.Alive i := by
        refine (hstep i).mpr (Or.inr ⟨ha, ?_⟩)
        rintro ⟨-, old', hold', -, huid, -⟩
        exact hu (by rw [hold', Option.map_some, huid])
      -- the overwritten stream has no place: its own name now leads to the new stream
      obtain ⟨type, streamName, hj⟩ := (he.exact i).mp hafter
      have hj' : ((m.removePullStream msg.uid.toUInt64 msg.streamName).addStream .pull
          msg.streamName stream).findStream type streamName = some i := by
        rw [← heq]
        exact hj
      rw [findStream_addStream] at hj'
      split at hj'
      · have : m.memory.size = i := hsize ▸ Option.some.inj hj'
        exact Nat.lt_irrefl _ (this ▸ ha.1)
      · rename_i hp
        obtain ⟨-, new, hnew, hnt, hnn⟩ := hcons.registered _ _ _ hj'
        obtain ⟨-, same, hsame, hst, hsn⟩ := hcons.registered .pull msg.streamName i (by
          rw [removeNamed_of_noneNamed]
          · exact hi
          · intro k hk
            rw [show k = i from Option.some.inj (hk.symm.trans hi)]
            exact hu)
        obtain rfl : new = same := Option.some.inj (hnew.symm.trans hsame)
        exact hp ⟨hnt.symm.trans hst, hnn.symm.trans hsn⟩
  | stopPush uid streamName => trivial
  | stopPull uid streamName => trivial
  | connectionState i state => trivial
  | iceTimeout i => trivial

theorem Consistent.along_endsExactly_iff {m : RtcStreamManager} (h : m.Consistent)
    (es : List Event) :
    Runs.Along RtcStreamManager.step EndsExactly m es ↔
      Runs.Along RtcStreamManager.step CreatesCleanly m es :=
  Runs.along_iff (fun _ _ h hc => h.step hc)
    (fun _ _ h => ⟨h.createsCleanly, h.endsExactly⟩) h es

/-- Along every run, the maps are exact and each stop or failure deletes its stream and
no other, as long as every stream is created cleanly and only so long. -/
theorem ends_exactly_iff (es : List Event) :
    Runs.Along step EndsExactly {} es ↔ Runs.Along step CreatesCleanly {} es :=
  consistent_empty.along_endsExactly_iff es

/-- Two users pull one stream. -/
def twoPullers : List Event :=
  [.createPush { uid := 1, streamName := "n" } {},
   .createPull { uid := 2, streamName := "n" } {},
   .createPull { uid := 3, streamName := "n" } {}]

/-- The stream of the first of them is still there, and the name leads to the second. -/
theorem twoPullers_lose_first :
    ¬Runs.Along step EndsExactly {} twoPullers ∧
      (Runs.run step {} twoPullers).memory.Alive 1 ∧
        (Runs.run step {} twoPullers).findPullStream "n" = some 2 := by
  refine ⟨?_, by decide, by decide⟩
  rw [consistent_empty.along_endsExactly_iff]
  rintro ⟨-, -, hc, -⟩
  exact absurd ((hc (by decide)).2 1 (by decide)) (by decide)

end RtcStreamManager
end Stream
end XrtcServer
