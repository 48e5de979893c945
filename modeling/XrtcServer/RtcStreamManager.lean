import XrtcServer.ObjectHeap
import XrtcServer.Runs
import Mathlib.Data.List.AList

/-! `RtcStreamManager` with its push and pull streams. Streams are objects with
numbers, and the two maps have a number for each stream name. What a peer connection
does by itself while a stream is created is an input of the creating event. -/
namespace XrtcServer
namespace Stream
open ObjectHeap

inductive RtcStreamType
  | push | pull
  deriving DecidableEq, Repr

inductive PeerConnectionState
  | new | connecting | connected | disconnected | failed | closed
  deriving DecidableEq, Repr

structure SsrcGroup where
  semantics : String
  ssrcs : List UInt32
  deriving DecidableEq, Repr

structure StreamParams where
  id : String
  ssrcs : List UInt32
  ssrcGroups : List SsrcGroup
  cname : String
  streamId : String
  deriving DecidableEq, Repr

/-- `RtcMsg`; a signaling worker and a connection are known by numbers. -/
structure RtcMsg where
  cmdno : ℤ := -1
  uid : UInt16 := 0
  streamName : String := ""
  audio : ℤ := 0
  video : ℤ := 0
  logId : UInt32 := 0
  worker : Option ℕ := none
  conn : Option ℕ := none
  fd : ℤ := 0
  sdp : String := ""
  errNo : ℤ := 0
  dtlsOn : ℤ := 1
  deriving DecidableEq, Repr

/-- `iceTimeoutArmed`: the timer of the stream runs. The sources of a push stream are
those of its remote description, a pull stream is given its sources. -/
structure RtcStream where
  type : RtcStreamType
  uid : UInt64
  streamName : String
  audio : Bool
  video : Bool
  dtlsOn : Bool
  logId : UInt32
  audioSource : List StreamParams
  videoSource : List StreamParams
  state : PeerConnectionState := .new
  iceTimeoutArmed : Bool := true
  deriving DecidableEq, Repr

/-- What the peer connection of a new stream does during `start`, `set_remote_sdp` and
`create_answer`: the states it signals, the sources it finds, the answer. -/
structure PeerOutcome where
  states : List PeerConnectionState := []
  audioSource : List StreamParams := []
  videoSource : List StreamParams := []
  answer : String := ""

structure RtcStreamManager where
  memory : Heap RtcStream := {}
  pushStreams : AList (fun _ : String => ℕ) := ∅
  pullStreams : AList (fun _ : String => ℕ) := ∅

namespace RtcStreamManager

/-- The map for the streams of a type. -/
def streams (m : RtcStreamManager) : RtcStreamType → AList fun _ : String => ℕ
  | .push => m.pushStreams
  | .pull => m.pullStreams

def setStreams (m : RtcStreamManager) (type : RtcStreamType) (map : AList fun _ : String => ℕ) :
    RtcStreamManager :=
  match type with
  | .push => { m with pushStreams := map }
  | .pull => { m with pullStreams := map }

def findStream (m : RtcStreamManager) (type : RtcStreamType) (streamName : String) : Option ℕ :=
  (m.streams type).lookup streamName

def findPushStream (m : RtcStreamManager) (streamName : String) : Option ℕ :=
  m.findStream .push streamName

def findPullStream (m : RtcStreamManager) (streamName : String) : Option ℕ :=
  m.findStream .pull streamName

/-- Take a name out of a map and delete the stream that stood there. -/
def dropStream (m : RtcStreamManager) (type : RtcStreamType) (streamName : String) (i : ℕ) :
    RtcStreamManager :=
  let m := m.setStreams type ((m.streams type).erase streamName)
  { m with memory := m.memory.free i }

/-- Removal by user and name, the same for both types. -/
def removeNamed (m : RtcStreamManager) (type : RtcStreamType) (uid : UInt64)
    (streamName : String) : RtcStreamManager :=
  match m.findStream type streamName with
  | none => m
  | some i =>
    if (m.memory.get? i).map RtcStream.uid = some uid then m.dropStream type streamName i else m

def removePushStream (m : RtcStreamManager) (uid : UInt64) (streamName : String) :
    RtcStreamManager :=
  m.removeNamed .push uid streamName

def removePullStream (m : RtcStreamManager) (uid : UInt64) (streamName : String) :
    RtcStreamManager :=
  m.removeNamed .pull uid streamName

/-- `_remove_push_stream` and `_remove_pull_stream` of a stream: by its user and name. -/
def removeStream (m : RtcStreamManager) (i : ℕ) : RtcStreamManager :=
  match m.memory.get? i with
  | none => m
  | some stream =>
    match stream.type with
    | .push => m.removePushStream stream.uid stream.streamName
    | .pull => m.removePullStream stream.uid stream.streamName

def stopPush (m : RtcStreamManager) (uid : UInt64) (streamName : String) : RtcStreamManager :=
  m.removePushStream uid streamName

def stopPull (m : RtcStreamManager) (uid : UInt64) (streamName : String) : RtcStreamManager :=
  m.removePullStream uid streamName

/-- The listener's `on_connection_state`. -/
def onConnectionState (m : RtcStreamManager) (i : ℕ) (state : PeerConnectionState) :
    RtcStreamManager :=
  if state = .failed then m.removeStream i else m

/-- `RtcStream::_on_connection_state`. -/
def streamConnectionState (m : RtcStreamManager) (i : ℕ) (state : PeerConnectionState) :
    RtcStreamManager :=
  match m.memory.get? i with
  | none => m
  | some stream =>
    if stream.state = state then m
    else
      let m := { m with memory := m.memory.modify i fun s =>
        { s with state, iceTimeoutArmed := s.iceTimeoutArmed && decide (state ≠ PeerConnectionState.connected) } }
      m.onConnectionState i state

def onStreamException (m : RtcStreamManager) (i : ℕ) : RtcStreamManager := m.removeStream i

/-- `ice_timeout_cb`; the timer runs out once. -/
def iceTimeout (m : RtcStreamManager) (i : ℕ) : RtcStreamManager :=
  match m.memory.get? i with
  | none => m
  | some stream =>
    if stream.iceTimeoutArmed then
      let m := { m with memory := m.memory.modify i fun s => { s with iceTimeoutArmed := false } }
      if stream.state ≠ .connected then m.onStreamException i else m
    else m

/-- A new stream, not yet in a map, goes through what its peer connection signals. -/
def startStream (m : RtcStreamManager) (stream : RtcStream) (outcome : PeerOutcome) :
    RtcStreamManager :=
  outcome.states.foldl (fun n state => n.streamConnectionState m.memory.size state)
    { m with memory := m.memory.alloc stream }

/-- Give a name in a map to a stream, whatever had it. -/
def register (m : RtcStreamManager) (type : RtcStreamType) (streamName : String) (i : ℕ) :
    RtcStreamManager :=
  m.setStreams type ((m.streams type).insert streamName i)

/-- The stream that the constructors make of a message. -/
def newStream (msg : RtcMsg) (type : RtcStreamType) (audioSource videoSource : List StreamParams) :
    RtcStream where
  type
  uid := msg.uid.toUInt64
  streamName := msg.streamName
  audio := msg.audio ≠ 0
  video := msg.video ≠ 0
  dtlsOn := msg.dtlsOn ≠ 0
  logId := msg.logId
  audioSource
  videoSource

/-- A push stream of the name is dropped, whoever its user is. -/
def dropPushStream (m : RtcStreamManager) (streamName : String) : RtcStreamManager :=
  match m.findPushStream streamName with
  | some i => m.dropStream .push streamName i
  | none => m

/-- Results: the return value and the answer. -/
def createPushStream (m : RtcStreamManager) (msg : RtcMsg) (outcome : PeerOutcome) :
    RtcStreamManager × ℤ × String :=
  let m := m.dropPushStream msg.streamName
  let stream := newStream msg .push outcome.audioSource outcome.videoSource
  ((m.startStream stream outcome).register .push msg.streamName m.memory.size, 0, outcome.answer)

def createPullStream (m : RtcStreamManager) (msg : RtcMsg) (outcome : PeerOutcome) :
    RtcStreamManager × ℤ × String :=
  match (m.findPushStream msg.streamName).bind m.memory.get? with
  | none => (m, -1, "")
  | some pushStream =>
    let m := m.removePullStream msg.uid.toUInt64 msg.streamName
    let stream := newStream msg .pull pushStream.audioSource pushStream.videoSource
    ((m.startStream stream outcome).register .pull msg.streamName m.memory.size, 0, outcome.answer)

/-- The streams whose `send_rtp` is called for an RTP packet of a stream. -/
def onRtpPacketReceived (m : RtcStreamManager) (i : ℕ) : List ℕ :=
  match m.memory.get? i with
  | some stream =>
    match stream.type with
    | .push => (m.findPullStream stream.streamName).toList
    | .pull => []
  | none => []

/-- The streams whose `send_rtcp` is called for an RTCP packet of a stream. -/
def onRtcpPacketReceived (m : RtcStreamManager) (i : ℕ) : List ℕ :=
  match m.memory.get? i with
  | some stream =>
    match stream.type with
    | .push => (m.findPullStream stream.streamName).toList
    | .pull => (m.findPushStream stream.streamName).toList
  | none => []

/-- What reaches the manager: requests, and signals and timers of streams that exist. -/
inductive Event
  | createPush (msg : RtcMsg) (outcome : PeerOutcome)
  | createPull (msg : RtcMsg) (outcome : PeerOutcome)
  | stopPush (uid : UInt64) (streamName : String)
  | stopPull (uid : UInt64) (streamName : String)
  | connectionState (i : ℕ) (state : PeerConnectionState)
  | iceTimeout (i : ℕ)

def step (m : RtcStreamManager) : Event → RtcStreamManager
  | .createPush msg outcome => (m.createPushStream msg outcome).1
  | .createPull msg outcome => (m.createPullStream msg outcome).1
  | .stopPush uid streamName => m.stopPush uid streamName
  | .stopPull uid streamName => m.stopPull uid streamName
  | .connectionState i state => if m.memory.Alive i then m.streamConnectionState i state else m
  | .iceTimeout i => if m.memory.Alive i then m.iceTimeout i else m

@[simp] theorem memory_setStreams (m : RtcStreamManager) (type : RtcStreamType)
    (map : AList fun _ : String => ℕ) : (m.setStreams type map).memory = m.memory := by
  cases type <;> rfl

@[simp] theorem streams_setStreams (m : RtcStreamManager) (type type' : RtcStreamType)
    (map : AList fun _ : String => ℕ) :
    (m.setStreams type map).streams type' = if type' = type then map else m.streams type' := by
  cases type <;> cases type' <;> rfl

@[simp] theorem streams_memory (m : RtcStreamManager) (memory : Heap RtcStream)
    (type : RtcStreamType) :
    ({ m with memory } : RtcStreamManager).streams type = m.streams type := by
  cases type <;> rfl

/-- A map has only streams of its type that exist, under their own names. -/
structure Keyed (m : RtcStreamManager) : Prop where
  registered : ∀ type streamName i, m.findStream type streamName = some i →
    m.memory.Alive i ∧ ∃ stream, m.memory.get? i = some stream ∧
      stream.type = type ∧ stream.streamName = streamName
  bounded : ∀ i ∈ m.memory.freed, i < m.memory.size

theorem keyed_empty : ({} : RtcStreamManager).Keyed where
  registered type streamName i h := by cases type <;> simp [findStream, streams] at h
  bounded i hi := by simp at hi

theorem findStream_dropStream (m : RtcStreamManager) (type type' : RtcStreamType)
    (streamName name : String) (i : ℕ) :
    (m.dropStream type streamName i).findStream type' name =
      if type' = type ∧ name = streamName then none else m.findStream type' name := by
  unfold dropStream findStream
  simp only [streams_memory, streams_setStreams]
  by_cases ht : type' = type
  · subst ht
    by_cases hn : name = streamName
    · subst hn
      simp [AList.lookup_erase]
    · simp [hn, AList.lookup_erase_ne hn]
  · simp [ht]

theorem memory_dropStream (m : RtcStreamManager) (type : RtcStreamType) (streamName : String)
    (i : ℕ) : (m.dropStream type streamName i).memory = m.memory.free i := by
  simp [dropStream]

theorem findStream_register (m : RtcStreamManager) (type type' : RtcStreamType)
    (streamName name : String) (i : ℕ) :
    (m.register type streamName i).findStream type' name =
      if type' = type ∧ name = streamName then some i else m.findStream type' name := by
  unfold register findStream
  rw [streams_setStreams]
  by_cases ht : type' = type
  · subst ht
    by_cases hn : name = streamName
    · subst hn
      simp
    · simp [hn, AList.lookup_insert_ne hn]
  · simp [ht]

/-- A stream stands in one place only. -/
theorem Keyed.place_unique {m : RtcStreamManager} (h : m.Keyed) {type type' : RtcStreamType}
    {streamName streamName' : String} {i : ℕ} (hi : m.findStream type streamName = some i)
    (hi' : m.findStream type' streamName' = some i) : type = type' ∧ streamName = streamName' := by
  obtain ⟨-, s, hs, ht, hn⟩ := h.registered _ _ _ hi
  obtain ⟨-, s', hs', ht', hn'⟩ := h.registered _ _ _ hi'
  obtain rfl : s = s' := Option.some.inj (hs.symm.trans hs')
  exact ⟨ht.symm.trans ht', hn.symm.trans hn'⟩

theorem Keyed.dropStream {m : RtcStreamManager} (h : m.Keyed) {type : RtcStreamType}
    {streamName : String} {i : ℕ} (hi : m.findStream type streamName = some i) :
    (m.dropStream type streamName i).Keyed where
  registered type' name j hj := by
    rw [findStream_dropStream] at hj
    split at hj
    · cases hj
    · rename_i hne
      obtain ⟨ha, hs⟩ := h.registered _ _ _ hj
      have hji : j ≠ i := fun he => hne (h.place_unique (he ▸ hj) hi)
      rw [memory_dropStream, Heap.get?_free]
      exact ⟨Heap.alive_free.mpr ⟨ha, hji⟩, hs⟩
  bounded j hj := by
    rw [memory_dropStream] at hj ⊢
    rcases List.mem_cons.mp hj with rfl | hj
    · exact (h.registered _ _ _ hi).1.1
    · exact h.bounded j hj

/-- Removal by user and name either finds nothing or drops the one stream it finds. -/
theorem removeNamed_cases (m : RtcStreamManager) (type : RtcStreamType) (uid : UInt64)
    (streamName : String) :
    (m.removeNamed type uid streamName = m ∧ ∀ i, m.findStream type streamName = some i →
      (m.memory.get? i).map RtcStream.uid ≠ some uid) ∨
    ∃ i, m.findStream type streamName = some i ∧ (m.memory.get? i).map RtcStream.uid = some uid ∧
      m.removeNamed type uid streamName = m.dropStream type streamName i := by
  unfold removeNamed
  cases hf : m.findStream type streamName with
  | none => exact Or.inl ⟨rfl, fun i hi => by cases hi⟩
  | some i =>
    by_cases hu : (m.memory.get? i).map RtcStream.uid = some uid
    · exact Or.inr ⟨i, rfl, hu, if_pos hu⟩
    · refine Or.inl ⟨if_neg hu, fun j hj => ?_⟩
      rw [← Option.some.inj hj]
      exact hu

theorem Keyed.removeNamed {m : RtcStreamManager} (h : m.Keyed) (type : RtcStreamType)
    (uid : UInt64) (streamName : String) : (m.removeNamed type uid streamName).Keyed := by
  rcases m.removeNamed_cases type uid streamName with ⟨he, -⟩ | ⟨i, hi, -, he⟩
  · rw [he]
    exact h
  · rw [he]
    exact h.dropStream hi

theorem removeStream_eq {m : RtcStreamManager} {i : ℕ} {stream : RtcStream}
    (hs : m.memory.get? i = some stream) :
    m.removeStream i = m.removeNamed stream.type stream.uid stream.streamName := by
  unfold removeStream
  rw [hs]
  cases ht : stream.type <;> simp [ht, removePushStream, removePullStream]

theorem Keyed.removeStream {m : RtcStreamManager} (h : m.Keyed) (i : ℕ) :
    (m.removeStream i).Keyed := by
  cases hs : m.memory.get? i with
  | none => simpa [RtcStreamManager.removeStream, hs] using h
  | some stream =>
    rw [removeStream_eq hs]
    exact h.removeNamed _ _ _

/-- Changes to a stream that leave its type and its name alone. -/
theorem Keyed.modify {m : RtcStreamManager} (h : m.Keyed) (i : ℕ) {f : RtcStream → RtcStream}
    (hf : ∀ s, (f s).type = s.type ∧ (f s).streamName = s.streamName) :
    ({ m with memory := m.memory.modify i f } : RtcStreamManager).Keyed where
  registered type streamName j hj := by
    have hj' : m.findStream type streamName = some j := by
      simpa [findStream] using hj
    obtain ⟨ha, s, hs, ht, hn⟩ := h.registered _ _ _ hj'
    refine ⟨Heap.alive_modify.mpr ha, ?_⟩
    rw [Heap.get?_modify, hs]
    by_cases hij : i = j
    · exact ⟨f s, by simp [hij], (hf s).1.trans ht, (hf s).2.trans hn⟩
    · exact ⟨s, by simp [hij], ht, hn⟩
  bounded j hj := by
    rw [Heap.size_modify]
    exact h.bounded j hj

theorem Keyed.streamConnectionState {m : RtcStreamManager} (h : m.Keyed) (i : ℕ)
    (state : PeerConnectionState) : (m.streamConnectionState i state).Keyed := by
  unfold RtcStreamManager.streamConnectionState onConnectionState
  cases m.memory.get? i with
  | none => exact h
  | some stream =>
    dsimp only
    split_ifs
    · exact h
    · refine Keyed.removeStream ?_ i
      exact h.modify i fun _ => ⟨rfl, rfl⟩
    · exact h.modify i fun _ => ⟨rfl, rfl⟩

theorem Keyed.iceTimeout {m : RtcStreamManager} (h : m.Keyed) (i : ℕ) :
    (m.iceTimeout i).Keyed := by
  unfold RtcStreamManager.iceTimeout onStreamException
  cases m.memory.get? i with
  | none => exact h
  | some stream =>
    dsimp only
    split_ifs
    · refine Keyed.removeStream ?_ i
      exact h.modify i fun _ => ⟨rfl, rfl⟩
    · exact h.modify i fun _ => ⟨rfl, rfl⟩
    · exact h

/-- The manager with a new stream that has a name in a map. -/
def addStream (m : RtcStreamManager) (type : RtcStreamType) (streamName : String)
    (stream : RtcStream) : RtcStreamManager :=
  ({ m with memory := m.memory.alloc stream } : RtcStreamManager).register type streamName
    m.memory.size

theorem memory_addStream (m : RtcStreamManager) (type : RtcStreamType) (streamName : String)
    (stream : RtcStream) :
    (m.addStream type streamName stream).memory = m.memory.alloc stream := by
  simp [addStream, register]

theorem findStream_addStream (m : RtcStreamManager) (type type' : RtcStreamType)
    (streamName name : String) (stream : RtcStream) :
    (m.addStream type streamName stream).findStream type' name =
      if type' = type ∧ name = streamName then some m.memory.size else m.findStream type' name := by
  rw [addStream, findStream_register]
  simp [findStream]

theorem Keyed.alive_addStream {m : RtcStreamManager} (h : m.Keyed) (type : RtcStreamType)
    (streamName : String) (stream : RtcStream) (i : ℕ) :
    (m.addStream type streamName stream).memory.Alive i ↔ i = m.memory.size ∨ m.memory.Alive i := by
  rw [memory_addStream]
  refine ⟨fun ha => ?_, fun ha => ?_⟩
  · by_cases hi : i = m.memory.size
    · exact Or.inl hi
    · have hlt := ha.1
      rw [Heap.size_alloc] at hlt
      exact Or.inr ⟨by omega, ha.2⟩
  · rcases ha with rfl | ha
    · exact Heap.alive_alloc_new h.bounded
    · exact ha.alloc

theorem Keyed.addStream {m : RtcStreamManager} (h : m.Keyed) (stream : RtcStream) :
    (m.addStream stream.type stream.streamName stream).Keyed where
  registered type' name i hi := by
    rw [h.alive_addStream, memory_addStream, Heap.get?_alloc]
    rw [findStream_addStream] at hi
    split at hi
    · rename_i hp
      obtain rfl : m.memory.size = i := by simpa using hi
      exact ⟨Or.inl rfl, stream, if_pos rfl, hp.1.symm, hp.2.symm⟩
    · obtain ⟨ha, hs⟩ := h.registered _ _ _ hi
      rw [if_neg (Nat.ne_of_lt ha.1)]
      exact ⟨Or.inr ha, hs⟩
  bounded i hi := by
    rw [memory_addStream] at hi ⊢
    have hb := h.bounded i hi
    rw [Heap.size_alloc]
    omega

/-- No registered stream of the type has the user and the name. -/
def NoneNamed (m : RtcStreamManager) (type : RtcStreamType) (uid : UInt64) (streamName : String) :
    Prop :=
  ∀ i, m.findStream type streamName = some i → (m.memory.get? i).map RtcStream.uid ≠ some uid

theorem removeNamed_of_noneNamed {m : RtcStreamManager} {type : RtcStreamType} {uid : UInt64}
    {streamName : String} (h : m.NoneNamed type uid streamName) :
    m.removeNamed type uid streamName = m := by
  rcases m.removeNamed_cases type uid streamName with ⟨he, -⟩ | ⟨i, hi, hu, -⟩
  · exact he
  · exact absurd hu (h i hi)

/-- A signal of a stream that is not yet in a map changes nothing but the stream. -/
theorem streamConnectionState_new {m : RtcStreamManager} (h : m.Keyed) {stream : RtcStream}
    (hnone : m.NoneNamed stream.type stream.uid stream.streamName) (state : PeerConnectionState) :
    ∃ state' armed, ({ m with memory := m.memory.alloc stream } :
        RtcStreamManager).streamConnectionState m.memory.size state =
      { m with memory := m.memory.alloc { stream with state := state', iceTimeoutArmed := armed } } := by
  have hget : (m.memory.alloc stream).get? m.memory.size = some stream := by
    rw [Heap.get?_alloc, if_pos rfl]
  have hnone' : ∀ s : RtcStream, ({ m with memory := m.memory.alloc s } :
      RtcStreamManager).NoneNamed stream.type stream.uid stream.streamName := by
    intro s i hi
    have hi' : m.findStream stream.type stream.streamName = some i := by
      simpa [findStream] using hi
    have hne : i ≠ m.memory.size := Nat.ne_of_lt (h.registered _ _ _ hi').1.1
    show ((m.memory.alloc s).get? i).map RtcStream.uid ≠ some stream.uid
    rw [Heap.get?_alloc, if_neg hne]
    exact hnone i hi'
  unfold streamConnectionState onConnectionState
  simp only [hget]
  by_cases hsame : stream.state = state
  · rw [if_pos hsame]
    exact ⟨stream.state, stream.iceTimeoutArmed, rfl⟩
  · rw [if_neg hsame, Heap.modify_alloc]
    refine ⟨state, stream.iceTimeoutArmed && decide (state ≠ PeerConnectionState.connected), ?_⟩
    split
    · rw [removeStream_eq (Heap.get?_alloc .. |>.trans (if_pos rfl))]
      exact removeNamed_of_noneNamed (hnone' _)
    · rfl

/-- The same for all signals while the stream is created. -/
theorem startStream_eq {m : RtcStreamManager} (h : m.Keyed) {stream : RtcStream}
    (hnone : m.NoneNamed stream.type stream.uid stream.streamName) (outcome : PeerOutcome) :
    ∃ state armed, m.startStream stream outcome =
      { m with memory := m.memory.alloc { stream with state, iceTimeoutArmed := armed } } := by
  unfold startStream
  generalize outcome.states = states
  induction states generalizing stream with
  | nil => exact ⟨stream.state, stream.iceTimeoutArmed, rfl⟩
  | cons state states ih =>
    obtain ⟨state', armed', hstep⟩ := streamConnectionState_new h hnone state
    rw [List.foldl_cons, hstep]
    exact @ih { stream with state := state', iceTimeoutArmed := armed' } hnone

theorem Keyed.dropPushStream {m : RtcStreamManager} (h : m.Keyed) (streamName : String) :
    (m.dropPushStream streamName).Keyed := by
  unfold RtcStreamManager.dropPushStream
  cases hf : m.findPushStream streamName with
  | none => exact h
  | some i => exact h.dropStream hf

theorem findStream_dropPushStream (m : RtcStreamManager) (streamName : String) :
    (m.dropPushStream streamName).findStream .push streamName = none := by
  unfold dropPushStream
  cases hf : m.findPushStream streamName with
  | none => exact hf
  | some i => simp [findStream_dropStream]

/-- A create-push request ends with a new push stream under the name. -/
theorem createPushStream_eq {m : RtcStreamManager} (h : m.Keyed) (msg : RtcMsg)
    (outcome : PeerOutcome) :
    ∃ stream : RtcStream, stream.type = .push ∧ stream.uid = msg.uid.toUInt64 ∧
      stream.streamName = msg.streamName ∧ (m.createPushStream msg outcome).1 =
        (m.dropPushStream msg.streamName).addStream .push msg.streamName stream := by
  set stream := newStream msg .push outcome.audioSource outcome.videoSource with hs
  have hnone : (m.dropPushStream msg.streamName).NoneNamed stream.type stream.uid
      stream.streamName := by
    intro i hi
    rw [show stream.type = .push from rfl, show stream.streamName = msg.streamName from rfl,
      findStream_dropPushStream] at hi
    cases hi
  obtain ⟨state, armed, heq⟩ := startStream_eq (h.dropPushStream msg.streamName) hnone outcome
  refine ⟨{ stream with state, iceTimeoutArmed := armed }, rfl, rfl, rfl, ?_⟩
  show ((m.dropPushStream msg.streamName).startStream stream outcome).register .push
    msg.streamName (m.dropPushStream msg.streamName).memory.size = _
  rw [heq]
  rfl

theorem noneNamed_removeNamed (m : RtcStreamManager) (type : RtcStreamType)
    (uid : UInt64) (streamName : String) :
    (m.removeNamed type uid streamName).NoneNamed type uid streamName := by
  rcases m.removeNamed_cases type uid streamName with ⟨he, hn⟩ | ⟨i, hi, -, he⟩
  · rw [he]
    exact hn
  · intro j hj
    rw [he, findStream_dropStream] at hj
    simp at hj

/-- A create-pull request ends with a new pull stream under the name, if the name has a
push stream. -/
theorem createPullStream_eq {m : RtcStreamManager} (h : m.Keyed) (msg : RtcMsg)
    (outcome : PeerOutcome) (hp : (m.findPushStream msg.streamName).isSome) :
    ∃ stream : RtcStream, stream.type = .pull ∧ stream.uid = msg.uid.toUInt64 ∧
      stream.streamName = msg.streamName ∧ (m.createPullStream msg outcome).1 =
        (m.removePullStream msg.uid.toUInt64 msg.streamName).addStream .pull msg.streamName
          stream := by
  obtain ⟨p, hp⟩ := Option.isSome_iff_exists.mp hp
  obtain ⟨-, push, hpush, -⟩ := h.registered _ _ _ hp
  set stream := newStream msg .pull push.audioSource push.videoSource with hs
  have hnone : (m.removePullStream msg.uid.toUInt64 msg.streamName).NoneNamed stream.type
      stream.uid stream.streamName := noneNamed_removeNamed m _ _ _
  have hkeyed : (m.removePullStream msg.uid.toUInt64 msg.streamName).Keyed := h.removeNamed _ _ _
  obtain ⟨state, armed, heq⟩ := startStream_eq hkeyed hnone outcome
  refine ⟨{ stream with state, iceTimeoutArmed := armed }, rfl, rfl, rfl, ?_⟩
  unfold createPullStream
  rw [hp, Option.bind_some, hpush]
  show ((m.removePullStream msg.uid.toUInt64 msg.streamName).startStream stream outcome).register
    .pull msg.streamName (m.removePullStream msg.uid.toUInt64 msg.streamName).memory.size = _
  rw [heq]
  rfl

theorem createPullStream_none {m : RtcStreamManager} {msg : RtcMsg} (outcome : PeerOutcome)
    (hp : m.findPushStream msg.streamName = none) : (m.createPullStream msg outcome).1 = m := by
  simp [createPullStream, hp]

/-- Every event keeps the maps keyed. -/
theorem Keyed.step {m : RtcStreamManager} (h : m.Keyed) (e : Event) : (m.step e).Keyed := by
  cases e with
  | createPush msg outcome =>
    obtain ⟨stream, ht, -, hn, heq⟩ := createPushStream_eq h msg outcome
    show (m.createPushStream msg outcome).1.Keyed
    rw [heq, ← ht, ← hn]
    exact (h.dropPushStream _).addStream stream
  | createPull msg outcome =>
    show (m.createPullStream msg outcome).1.Keyed
    cases hp : m.findPushStream msg.streamName with
    | none =>
      rw [createPullStream_none outcome hp]
      exact h
    | some p =>
      obtain ⟨stream, ht, -, hn, heq⟩ := createPullStream_eq h msg outcome (by simp [hp])
      rw [heq, ← ht, ← hn]
      exact (h.removeNamed _ _ _).addStream stream
  | stopPush uid streamName => exact h.removeNamed _ _ _
  | stopPull uid streamName => exact h.removeNamed _ _ _
  | connectionState i state =>
    show (if m.memory.Alive i then m.streamConnectionState i state else m).Keyed
    split
    · exact h.streamConnectionState i state
    · exact h
  | iceTimeout i =>
    show (if m.memory.Alive i then m.iceTimeout i else m).Keyed
    split
    · exact h.iceTimeout i
    · exact h

end RtcStreamManager
end Stream
end XrtcServer
