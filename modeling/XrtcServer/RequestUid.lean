import XrtcServer.RtcServer
import XrtcServer.StreamForwarding

/-! Whose streams a request deletes. A message has 16 bits of the uid that stood in its
request, so the manager compares less than the requests say. -/
namespace XrtcServer

namespace Stream
open ObjectHeap

namespace RtcStreamManager

/-- Removal by user and name deletes the registered stream if it has the user. -/
theorem alive_removeNamed {m : RtcStreamManager} {i : ℕ} (ha : m.memory.Alive i)
    (type : RtcStreamType) (uid : UInt64) (streamName : String) :
    (m.removeNamed type uid streamName).memory.Alive i ↔
      ¬(m.findStream type streamName = some i ∧ (m.memory.get? i).map RtcStream.uid = some uid) := by
  rcases m.removeNamed_cases type uid streamName with ⟨he, hn⟩ | ⟨j, hj, hu, he⟩
  · rw [he]
    exact iff_of_true ha fun hi => hn i hi.1 hi.2
  · rw [he, memory_dropStream, Heap.alive_free, and_iff_right ha]
    refine not_congr ⟨fun hi => ?_, fun hi => Option.some.inj (hi.1.symm.trans hj)⟩
    rw [hi]
    exact ⟨hj, hu⟩

/-- A create-pull request for a published name deletes no more than its removal. -/
theorem Keyed.alive_createPullStream {m : RtcStreamManager} (h : m.Keyed) {i : ℕ}
    (ha : m.memory.Alive i) (msg : RtcMsg) (outcome : PeerOutcome)
    (hp : (m.findPushStream msg.streamName).isSome) :
    (m.createPullStream msg outcome).1.memory.Alive i ↔
      (m.removePullStream msg.uid.toUInt64 msg.streamName).memory.Alive i := by
  obtain ⟨stream, -, -, -, heq⟩ := createPullStream_eq h msg outcome hp
  have hkeyed : (m.removePullStream msg.uid.toUInt64 msg.streamName).Keyed := h.removeNamed _ _ _
  have hold : i ≠ (m.removePullStream msg.uid.toUInt64 msg.streamName).memory.size := by
    have hsize : (m.removePullStream msg.uid.toUInt64 msg.streamName).memory.size =
      m.memory.size := size_removeNamed m _ _ _
    rw [hsize]
    exact Nat.ne_of_lt ha.1
  rw [heq, hkeyed.alive_addStream, or_iff_right hold]

theorem entryOf_isSome (m : RtcStreamManager) (i : ℕ) :
    (m.entryOf i).isSome ↔ i < m.memory.size := by
  rw [entryOf, Option.isSome_map, Heap.get?_isSome]

theorem size_of_entryOf {m m' : RtcStreamManager} (h : m'.entryOf = m.entryOf) :
    m'.memory.size = m.memory.size := by
  apply le_antisymm
  · apply le_of_forall_lt
    intro i hi
    rwa [← entryOf_isSome, h, entryOf_isSome] at hi
  · apply le_of_forall_lt
    intro i hi
    rwa [← entryOf_isSome, ← h, entryOf_isSome] at hi

theorem entryOf_dropPushStream (m : RtcStreamManager) (streamName : String) :
    (m.dropPushStream streamName).entryOf = m.entryOf := by
  unfold dropPushStream
  cases m.findPushStream streamName with
  | none => rfl
  | some i => exact m.entryOf_dropStream .push streamName i

/-- The message of a creating event. -/
def Event.message : Event → Option RtcMsg
  | .createPush msg _ => some msg
  | .createPull msg _ => some msg
  | _ => none

/-- An event adds one stream, of its message's user and name, or none. -/
theorem Keyed.entryOf_step {m : RtcStreamManager} (h : m.Keyed) (e : Event) :
    (m.step e).entryOf = m.entryOf ∨
    ∃ type msg, e.message = some msg ∧ (m.step e).memory.size = m.memory.size + 1 ∧
      ∀ i, (m.step e).entryOf i = if i = m.memory.size then
        some ⟨type, msg.uid.toUInt64, msg.streamName, m.memory.size⟩ else m.entryOf i := by
  cases e with
  | createPush msg outcome =>
    obtain ⟨stream, -, hu, hn, heq⟩ := createPushStream_eq h msg outcome
    have hadd : m.step (.createPush msg outcome) = _ := heq
    refine Or.inr ⟨stream.type, msg, rfl, ?_, fun i => ?_⟩
    · rw [hadd, memory_addStream, Heap.size_alloc, size_dropPushStream]
    · rw [hadd, entryOf_addStream, entryOf_dropPushStream, size_dropPushStream, hu, hn]
  | createPull msg outcome =>
    cases hp : m.findPushStream msg.streamName with
    | none =>
      have hsame : m.step (.createPull msg outcome) = m := createPullStream_none outcome hp
      exact Or.inl (by rw [hsame])
    | some p =>
      obtain ⟨stream, -, hu, hn, heq⟩ := createPullStream_eq h msg outcome (by simp [hp])
      have hadd : m.step (.createPull msg outcome) = _ := heq
      have hentry : (m.removePullStream msg.uid.toUInt64 msg.streamName).entryOf = m.entryOf :=
        m.entryOf_removeNamed .pull _ _
      refine Or.inr ⟨stream.type, msg, rfl, ?_, fun i => ?_⟩
      · rw [hadd, memory_addStream, Heap.size_alloc, size_of_entryOf hentry]
      · rw [hadd, entryOf_addStream, hentry, size_of_entryOf hentry, hu, hn]
  | stopPush uid streamName => exact Or.inl (m.entryOf_step _ rfl)
  | stopPull uid streamName => exact Or.inl (m.entryOf_step _ rfl)
  | connectionState i state => exact Or.inl (m.entryOf_step _ rfl)
  | iceTimeout i => exact Or.inl (m.entryOf_step _ rfl)

end RtcStreamManager
end Stream

namespace Server
open XrtcServer.Stream ObjectHeap Runs
open XrtcServer.Stream.RtcStreamManager (entryOf entryOf_eq_some)

/-- A create-pull or a stop request. -/
def RtcMsg.PullsOrStops (msg : RtcMsg) : Prop :=
  msg.cmdno = cmdnoPull ∨ msg.cmdno = cmdnoStoppush ∨ msg.cmdno = cmdnoStoppull

/-- The type of the stream that a stop request is for. -/
def RtcMsg.stops (msg : RtcMsg) : Option RtcStreamType :=
  if msg.cmdno = cmdnoStoppush then some .push
  else if msg.cmdno = cmdnoStoppull then some .pull
  else none

/-- The type of the stream that a create-pull or a stop request removes. -/
def RtcMsg.removes (msg : RtcMsg) (m : RtcStreamManager) : Option RtcStreamType :=
  if msg.cmdno = cmdnoPull then
    if (m.findPushStream msg.streamName).isSome then some .pull else none
  else RtcMsg.stops msg

namespace RtcServer

/-- The stream exists. -/
def Alive (s : RtcServer) (k i : ℕ) : Prop :=
  ∃ w, s.workers[k]? = some w ∧ w.manager.memory.Alive i

/-- The stream was created by a request with this uid and has this type and name. -/
def CreatedBy (s : RtcServer) (uid : UInt64) (type : RtcStreamType) (streamName : String)
    (k i : ℕ) : Prop :=
  ∃ w, s.workers[k]? = some w ∧ w.requested[i]? = some uid ∧
    ∃ stream, w.manager.memory.get? i = some stream ∧ stream.type = type ∧
      stream.streamName = streamName

/-- The message that a step hands to a stream manager, with the worker. -/
def handled (s : RtcServer) : Event → Option (RtcWorker × Sent)
  | .workerMsg k _ => s.workers[k]?.bind fun w => w.queue.head?.map fun sent => (w, sent)
  | _ => none

/-- A create-pull or stop request deletes no stream that a request with another uid
created, and a stop request deletes the streams that it is for. -/
structure ActsByUid (s : RtcServer) (e : Event) : Prop where
  spares : ∀ w sent, s.handled e = some (w, sent) → RtcMsg.PullsOrStops sent.msg →
    ∀ uid type streamName k i, uid ≠ sent.requestedUid → s.Alive k i →
      s.CreatedBy uid type streamName k i → (s.step e).Alive k i
  stops : ∀ w sent type, s.handled e = some (w, sent) → RtcMsg.stops sent.msg = some type →
    ∀ k i, s.Alive k i → s.CreatedBy sent.requestedUid type sent.msg.streamName k i →
      ¬(s.step e).Alive k i

/-- The stream registered under the name was created by the very uid, if by one with the
same low bits, and the streams that a stop request is for are registered. -/
structure UidDecides (s : RtcServer) (e : Event) : Prop where
  same : ∀ w sent type, s.handled e = some (w, sent) →
    RtcMsg.removes sent.msg w.manager = some type →
    ∀ i uid, w.manager.findStream type sent.msg.streamName = some i →
      w.requested[i]? = some uid → uid.toUInt16 = sent.requestedUid.toUInt16 →
        uid = sent.requestedUid
  registered : ∀ w sent type, s.handled e = some (w, sent) →
    RtcMsg.stops sent.msg = some type →
    ∀ i stream, w.manager.memory.Alive i → w.manager.memory.get? i = some stream →
      stream.type = type → stream.streamName = sent.msg.streamName →
        w.requested[i]? = some sent.requestedUid →
          w.manager.findStream type sent.msg.streamName = some i

end RtcServer

/-- The message has the low bits of the uid of its request. -/
def Sent.Matches (sent : Sent) : Prop := sent.msg.uid = sent.requestedUid.toUInt16

/-- Streams and messages are at the worker of their name, with the low bits of the uid
that was asked for. -/
structure RtcWorker.Faithful (workerNum k : ℕ) (w : RtcWorker) : Prop where
  keyed : w.manager.Keyed
  length : w.requested.length = w.manager.memory.size
  requested : ∀ i x, w.manager.entryOf i = some x → ∃ uid, w.requested[i]? = some uid ∧
    x.uid = uid.toUInt16.toUInt64 ∧ RtcServer.workerIndex workerNum x.streamName = k
  queued : ∀ sent ∈ w.queue, sent.Matches ∧
    RtcServer.workerIndex workerNum sent.msg.streamName = k

structure RtcServer.Faithful (s : RtcServer) : Prop where
  queued : ∀ sent ∈ s.queue, sent.Matches
  workers : ∀ k (w : RtcWorker), s.workers[k]? = some w → w.Faithful s.workers.length k

theorem RtcWorker.faithful_empty (workerNum k : ℕ) : ({} : RtcWorker).Faithful workerNum k where
  keyed := RtcStreamManager.keyed_empty
  length := rfl
  requested i x hx := by
    have hlt := (RtcStreamManager.entryOf_isSome {} i).mp (by rw [hx]; rfl)
    exact absurd hlt (Nat.not_lt_zero i)
  queued sent hs := absurd hs List.not_mem_nil

namespace RtcWorker.Faithful
variable {workerNum k : ℕ} {w : RtcWorker}

theorem sendRtcMsg (h : w.Faithful workerNum k) {sent : Sent} (hm : sent.Matches)
    (hk : RtcServer.workerIndex workerNum sent.msg.streamName = k) :
    (w.sendRtcMsg sent).Faithful workerNum k where
  keyed := h.keyed
  length := h.length
  requested := h.requested
  queued sent' hs := by
    rcases List.mem_append.mp hs with hs | hs
    · exact h.queued sent' hs
    · rw [List.mem_singleton.mp hs]
      exact ⟨hm, hk⟩

/-- A stream that an event creates has the message's place and uid. -/
theorem act (h : w.Faithful workerNum k) {sent : Sent} (hm : sent.Matches)
    (hk : RtcServer.workerIndex workerNum sent.msg.streamName = k) {e : RtcStreamManager.Event}
    (he : ∀ msg, e.message = some msg → msg = sent.msg) : (w.act sent e).Faithful workerNum k := by
  have hkeyed : (w.manager.step e).Keyed := h.keyed.step e
  rcases h.keyed.entryOf_step e with hsame | ⟨type, msg, hmsg, hsize, hentry⟩
  · have hsize := RtcStreamManager.size_of_entryOf hsame
    have hw : w.act sent e = { w with manager := w.manager.step e } := by
      simp only [RtcWorker.act, if_pos hsize]
    rw [hw]
    exact ⟨hkeyed, h.length.trans hsize.symm, fun i x hx => h.requested i x (hsame ▸ hx), h.queued⟩
  · obtain rfl := he msg hmsg
    have hw : w.act sent e = { w with
        manager := w.manager.step e, requested := w.requested ++ [sent.requestedUid] } := by
      have hne : (w.manager.step e).memory.size ≠ w.manager.memory.size := by omega
      simp only [RtcWorker.act, if_neg hne]
    rw [hw]
    refine ⟨hkeyed, ?_, fun i x hx => ?_, h.queued⟩
    · rw [List.length_append, h.length, hsize]
      rfl
    · rw [hentry] at hx
      split at hx
      · rename_i hi
        obtain rfl := Option.some.inj hx
        refine ⟨sent.requestedUid, ?_, congrArg UInt16.toUInt64 hm, hk⟩
        show (w.requested ++ [sent.requestedUid])[i]? = _
        rw [hi, ← h.length, List.getElem?_concat_length]
      · obtain ⟨uid, hu, hx'⟩ := h.requested i x hx
        have hlt : i < w.requested.length := (List.getElem?_eq_some_iff.mp hu).1
        exact ⟨uid, (List.getElem?_append_left hlt).trans hu, hx'⟩

/-- A signal or a timer creates no stream. -/
theorem signal (h : w.Faithful workerNum k) {e : RtcStreamManager.Event}
    (he : e.creates = false) :
    ({ w with manager := w.manager.step e } : RtcWorker).Faithful workerNum k where
  keyed := h.keyed.step e
  length := h.length.trans (RtcStreamManager.size_of_entryOf (w.manager.entryOf_step e he)).symm
  requested i x hx := h.requested i x (w.manager.entryOf_step e he ▸ hx)
  queued := h.queued

end RtcWorker.Faithful

/-- The event of a message carries the message or none. -/
theorem RtcMsg.message_event {msg : RtcMsg} {outcome : PeerOutcome} {e : RtcStreamManager.Event}
    (he : RtcMsg.event msg outcome = some e) : ∀ msg', e.message = some msg' → msg' = msg := by
  intro msg' hmsg
  unfold RtcMsg.event at he
  split_ifs at he
  all_goals
    obtain rfl := Option.some.inj he
    first
      | exact (Option.some.inj hmsg).symm
      | cases hmsg

theorem RtcWorker.Faithful.processRtcMsg {workerNum k : ℕ} {w : RtcWorker}
    (h : w.Faithful workerNum k) (outcome : PeerOutcome) :
    (w.processRtcMsg outcome).Faithful workerNum k := by
  unfold RtcWorker.processRtcMsg
  cases hq : w.queue with
  | nil => exact h
  | cons sent rest =>
    have hrest : ({ w with queue := rest } : RtcWorker).Faithful workerNum k :=
      ⟨h.keyed, h.length, h.requested, fun sent' hs => h.queued sent' (hq ▸ List.mem_cons_of_mem _ hs)⟩
    obtain ⟨hm, hk⟩ := h.queued sent (hq ▸ List.mem_cons_self)
    dsimp only
    cases he : RtcMsg.event sent.msg outcome with
    | none => exact hrest
    | some e => exact hrest.act hm hk (RtcMsg.message_event he)

/-- The uid of a message is cut from the uid of its request. -/
theorem processRequest_uid {conn : TcpConnection} {root : Root} {logId : UInt32} {msg : RtcMsg}
    {uid : UInt64} (h : processRequest conn root logId = some msg) (hu : root.uid = some uid) :
    msg.uid = uid.toUInt16 := by
  obtain ⟨cmdno, -, h⟩ := Option.bind_eq_some_iff.mp h
  split_ifs at h
  · simp only [processPush, hu, Option.bind_eq_bind, Option.bind_some,
      Option.bind_eq_some_iff] at h
    obtain ⟨streamName, -, audio, -, video, -, offer, -, dtlsOn, -, h⟩ := h
    exact (Option.some.inj h) ▸ rfl
  · simp only [processPull, hu, Option.bind_eq_bind, Option.bind_some,
      Option.bind_eq_some_iff] at h
    obtain ⟨streamName, -, audio, -, video, -, offer, -, h⟩ := h
    exact (Option.some.inj h) ▸ rfl
  all_goals
    simp only [processStopPush, processStopPull, processStop, hu, Option.bind_eq_bind,
      Option.bind_some, Option.bind_eq_some_iff] at h
    obtain ⟨streamName, -, h⟩ := h
    exact (Option.some.inj h) ▸ rfl

namespace RtcServer

theorem faithful_init (workerNum : ℕ) : (init workerNum).Faithful where
  queued sent hs := absurd hs List.not_mem_nil
  workers k w hw := by
    obtain ⟨-, rfl⟩ := List.getElem?_eq_some_iff.mp hw |>.imp fun _ h => (List.getElem_replicate ..).symm.trans h
    exact RtcWorker.faithful_empty _ k

theorem Faithful.modifyWorker {s : RtcServer} (h : s.Faithful) (k : ℕ) {f : RtcWorker → RtcWorker}
    (hf : ∀ w, s.workers[k]? = some w → w.Faithful s.workers.length k →
      (f w).Faithful s.workers.length k) : (s.modifyWorker k f).Faithful where
  queued := h.queued
  workers j w hw := by
    have hlength : (s.workers.modify k f).length = s.workers.length := List.length_modify ..
    show w.Faithful (s.workers.modify k f).length j
    rw [hlength]
    have hw' : (s.workers.modify k f)[j]? = some w := hw
    rw [List.getElem?_modify] at hw'
    obtain ⟨w₀, hw₀, rfl⟩ := Option.map_eq_some_iff.mp hw'
    split
    · rename_i hkj
      subst hkj
      exact hf w₀ hw₀ (h.workers k w₀ hw₀)
    · exact h.workers j w₀ hw₀

theorem Faithful.step {s : RtcServer} (h : s.Faithful) (e : Event) : (s.step e).Faithful := by
  cases e with
  | request conn root logId =>
    unfold RtcServer.step
    dsimp only
    split
    · rename_i msg uid hmsg huid
      refine ⟨fun sent hs => ?_, h.workers⟩
      rcases List.mem_append.mp hs with hs | hs
      · exact h.queued sent hs
      · rw [List.mem_singleton.mp hs]
        exact processRequest_uid hmsg huid
    · exact h
  | serverMsg certified =>
    show (s.processRtcMsg certified).Faithful
    unfold RtcServer.processRtcMsg
    cases hq : s.queue with
    | nil => exact h
    | cons sent rest =>
      have hrest : ({ s with queue := rest } : RtcServer).Faithful :=
        ⟨fun sent' hs => h.queued sent' (hq ▸ List.mem_cons_of_mem _ hs), h.workers⟩
      have hm : sent.Matches := h.queued sent (hq ▸ List.mem_cons_self)
      dsimp only
      cases certified with
      | false => exact hrest
      | true =>
        unfold getWorker
        by_cases hz : s.workers.length = 0
        · rw [if_pos rfl, if_pos hz]
          exact hrest
        · rw [if_pos rfl, if_neg hz]
          exact hrest.modifyWorker _ fun w _ hw => hw.sendRtcMsg hm rfl
  | workerMsg k outcome => exact h.modifyWorker k fun w _ hw => hw.processRtcMsg outcome
  | connectionState k i state => exact h.modifyWorker k fun w _ hw => hw.signal rfl
  | iceTimeout k i => exact h.modifyWorker k fun w _ hw => hw.signal rfl

end RtcServer

/-- A stream has the low bits of the uid that its request had. -/
theorem RtcWorker.Faithful.uid_of_requested {workerNum k : ℕ} {w : RtcWorker}
    (h : w.Faithful workerNum k) {i : ℕ} {uid : UInt64} (hu : w.requested[i]? = some uid) :
    (w.manager.memory.get? i).map RtcStream.uid = some uid.toUInt16.toUInt64 ∧
      ∀ stream, w.manager.memory.get? i = some stream →
        RtcServer.workerIndex workerNum stream.streamName = k := by
  have hlt : i < w.manager.memory.size := h.length ▸ (List.getElem?_eq_some_iff.mp hu).1
  obtain ⟨x, hx⟩ := Option.isSome_iff_exists.mp ((w.manager.entryOf_isSome i).mpr hlt)
  obtain ⟨uid', hu', hxu, hplace⟩ := h.requested i x hx
  obtain rfl : uid = uid' := Option.some.inj (hu.symm.trans hu')
  obtain ⟨stream, hs, -, hsu, hsn, -⟩ := entryOf_eq_some.mp hx
  refine ⟨by rw [hs, Option.map_some, ← hsu, hxu], fun stream' hs' => ?_⟩
  obtain rfl : stream = stream' := Option.some.inj (hs.symm.trans hs')
  rw [← hsn]
  exact hplace

/-- What a create-pull or a stop request deletes at its worker. -/
theorem RtcWorker.Faithful.alive_processRtcMsg {workerNum k : ℕ} {w : RtcWorker}
    (h : w.Faithful workerNum k) {sent : Sent} {rest : List Sent} (hq : w.queue = sent :: rest)
    (hp : RtcMsg.PullsOrStops sent.msg) (outcome : PeerOutcome) {i : ℕ}
    (ha : w.manager.memory.Alive i) :
    (w.processRtcMsg outcome).manager.memory.Alive i ↔
      ¬∃ type, RtcMsg.removes sent.msg w.manager = some type ∧
        w.manager.findStream type sent.msg.streamName = some i ∧
          (w.manager.memory.get? i).map RtcStream.uid = some sent.msg.uid.toUInt64 := by
  have hstep : ∀ e, RtcMsg.event sent.msg outcome = some e →
      (w.processRtcMsg outcome).manager = w.manager.step e := by
    intro e he
    simp only [RtcWorker.processRtcMsg, hq, he]
    rfl
  have hremoved : ∀ type, RtcMsg.removes sent.msg w.manager = some type →
      ((w.manager.removeNamed type sent.msg.uid.toUInt64 sent.msg.streamName).memory.Alive i ↔
        ¬∃ type, RtcMsg.removes sent.msg w.manager = some type ∧
          w.manager.findStream type sent.msg.streamName = some i ∧
            (w.manager.memory.get? i).map RtcStream.uid = some sent.msg.uid.toUInt64) := by
    intro type htype
    rw [RtcStreamManager.alive_removeNamed ha]
    refine not_congr ⟨fun hi => ⟨type, htype, hi⟩, fun ⟨type', htype', hi⟩ => ?_⟩
    rw [Option.some.inj (htype.symm.trans htype')]
    exact hi
  rcases hp with hc | hc | hc
  · rw [hstep (.createPull sent.msg outcome) (by simp [RtcMsg.event, hc, cmdnoPull, cmdnoPush])]
    show (w.manager.createPullStream sent.msg outcome).1.memory.Alive i ↔ _
    by_cases hpub : (w.manager.findPushStream sent.msg.streamName).isSome
    · rw [h.keyed.alive_createPullStream ha sent.msg outcome hpub]
      exact hremoved .pull (by rw [RtcMsg.removes, if_pos hc, if_pos hpub])
    · rw [RtcStreamManager.createPullStream_none outcome (Option.not_isSome_iff_eq_none.mp hpub)]
      refine iff_of_true ha fun ⟨type, htype, _⟩ => ?_
      rw [RtcMsg.removes, if_pos hc, if_neg hpub] at htype
      cases htype
  · rw [hstep (.stopPush sent.msg.uid.toUInt64 sent.msg.streamName)
      (by simp [RtcMsg.event, hc, cmdnoPull, cmdnoPush, cmdnoStoppush])]
    exact hremoved .push (by simp [RtcMsg.removes, RtcMsg.stops, hc, cmdnoPull, cmdnoStoppush])
  · rw [hstep (.stopPull sent.msg.uid.toUInt64 sent.msg.streamName)
      (by simp [RtcMsg.event, hc, cmdnoPull, cmdnoPush, cmdnoStoppush, cmdnoStoppull])]
    exact hremoved .pull
      (by simp [RtcMsg.removes, RtcMsg.stops, hc, cmdnoPull, cmdnoStoppush, cmdnoStoppull])

theorem RtcMsg.pullsOrStops_of_stops {msg : RtcMsg} {type : RtcStreamType}
    (h : RtcMsg.stops msg = some type) : RtcMsg.PullsOrStops msg := by
  unfold RtcMsg.stops at h
  split_ifs at h with h₁ h₂
  · exact Or.inr (Or.inl h₁)
  · exact Or.inr (Or.inr h₂)

theorem RtcMsg.removes_of_stops {msg : RtcMsg} {type : RtcStreamType}
    (h : RtcMsg.stops msg = some type) (m : RtcStreamManager) :
    RtcMsg.removes msg m = some type := by
  unfold RtcMsg.removes
  rw [if_neg, h]
  intro hc
  simp [RtcMsg.stops, hc, cmdnoPull, cmdnoStoppush, cmdnoStoppull] at h

theorem RtcMsg.pullsOrStops_of_removes {msg : RtcMsg} {type : RtcStreamType} {m : RtcStreamManager}
    (h : RtcMsg.removes msg m = some type) : RtcMsg.PullsOrStops msg := by
  unfold RtcMsg.removes at h
  split_ifs at h with h₁
  · exact Or.inl h₁
  · exact RtcMsg.pullsOrStops_of_stops h

namespace RtcServer

theorem handled_eq_some {s : RtcServer} {e : Event} {w : RtcWorker} {sent : Sent}
    (h : s.handled e = some (w, sent)) :
    ∃ k outcome rest, e = .workerMsg k outcome ∧ s.workers[k]? = some w ∧
      w.queue = sent :: rest := by
  cases e with
  | workerMsg k outcome =>
    obtain ⟨w', hw, h⟩ := Option.bind_eq_some_iff.mp h
    obtain ⟨sent', hs, h⟩ := Option.map_eq_some_iff.mp h
    obtain ⟨rfl, rfl⟩ := Prod.mk.inj h
    obtain ⟨rest, hq⟩ := List.head?_eq_some_iff.mp hs
    exact ⟨k, outcome, rest, rfl, hw, hq⟩
  | request conn root logId => cases h
  | serverMsg certified => cases h
  | connectionState k i state => cases h
  | iceTimeout k i => cases h

/-- A worker's notification changes that worker only. -/
theorem alive_workerMsg {s : RtcServer} {k : ℕ} {outcome : PeerOutcome} {k' i : ℕ} :
    (s.step (.workerMsg k outcome)).Alive k' i ↔ ∃ w, s.workers[k']? = some w ∧
      (if k = k' then w.processRtcMsg outcome else w).manager.memory.Alive i := by
  show (∃ w, (s.workers.modify k fun w => w.processRtcMsg outcome)[k']? = some w ∧
    w.manager.memory.Alive i) ↔ _
  rw [List.getElem?_modify]
  refine ⟨fun ⟨w', hw', ha⟩ => ?_, fun ⟨w, hw, ha⟩ => ⟨_, by rw [hw]; rfl, ha⟩⟩
  obtain ⟨w, hw, rfl⟩ := Option.map_eq_some_iff.mp hw'
  exact ⟨w, hw, ha⟩

theorem Faithful.actsByUid {s : RtcServer} (h : s.Faithful) {e : Event} (hd : s.UidDecides e) :
    s.ActsByUid e where
  spares w sent hh hp uid type streamName k' i hne ha hc := by
    obtain ⟨k, outcome, rest, rfl, hw, hq⟩ := handled_eq_some hh
    obtain ⟨w', hw', ha⟩ := ha
    refine alive_workerMsg.mpr ⟨w', hw', ?_⟩
    by_cases hk : k = k'
    · subst hk
      obtain rfl : w = w' := Option.some.inj (hw.symm.trans hw')
      obtain ⟨w'', hw'', hu, -⟩ := hc
      obtain rfl : w = w'' := Option.some.inj (hw.symm.trans hw'')
      have hf := h.workers k w hw
      rw [if_pos rfl, hf.alive_processRtcMsg hq hp outcome ha]
      rintro ⟨type', hremoves, hfind, huid⟩
      rw [(hf.uid_of_requested hu).1, (hf.queued sent (hq ▸ List.mem_cons_self)).1] at huid
      exact hne (hd.same w sent type' hh hremoves i uid hfind hu
        (UInt16.toUInt64_inj.mp (Option.some.inj huid)))
    · rw [if_neg hk]
      exact ha
  stops w sent type hh hstops k' i ha hc hafter := by
    obtain ⟨k, outcome, rest, rfl, hw, hq⟩ := handled_eq_some hh
    have hf := h.workers k w hw
    obtain ⟨hm, hplace⟩ := hf.queued sent (hq ▸ List.mem_cons_self)
    obtain ⟨w', hw', hu, stream, hs, ht, hn⟩ := hc
    obtain ⟨huid, hplace'⟩ := (h.workers k' w' hw').uid_of_requested hu
    -- the name leads to one worker, so the stream is there
    obtain rfl : k = k' := by rw [← hplace, ← hplace' stream hs, hn]
    have hsame : ∀ w', s.workers[k]? = some w' → w' = w := fun w' hw' =>
      Option.some.inj (hw'.symm.trans hw)
    obtain ⟨w₁, hw₁, ha⟩ := ha
    obtain ⟨w₂, hw₂, hafter⟩ := alive_workerMsg.mp hafter
    obtain rfl := hsame w' hw'
    obtain rfl := hsame w₁ hw₁
    obtain rfl := hsame w₂ hw₂
    rw [if_pos rfl, hf.alive_processRtcMsg hq (RtcMsg.pullsOrStops_of_stops hstops) outcome ha]
      at hafter
    refine hafter ⟨type, RtcMsg.removes_of_stops hstops _, ?_, ?_⟩
    · exact hd.registered _ sent type hh hstops i stream ha hs ht hn hu
    · rw [huid, hm]

theorem Faithful.uidDecides {s : RtcServer} (h : s.Faithful) {e : Event} (ha : s.ActsByUid e) :
    s.UidDecides e where
  same w sent type hh hremoves i uid hfind hu hbits := by
    by_contra hne
    obtain ⟨k, outcome, rest, rfl, hw, hq⟩ := handled_eq_some hh
    have hf := h.workers k w hw
    have hp := RtcMsg.pullsOrStops_of_removes hremoves
    obtain ⟨halive, stream, hs, -⟩ := hf.keyed.registered _ _ _ hfind
    have hafter := ha.spares w sent hh hp uid stream.type stream.streamName k i hne
      ⟨w, hw, halive⟩ ⟨w, hw, hu, stream, hs, rfl, rfl⟩
    obtain ⟨w', hw', hafter⟩ := alive_workerMsg.mp hafter
    obtain rfl : w = w' := Option.some.inj (hw.symm.trans hw')
    rw [if_pos rfl, hf.alive_processRtcMsg hq hp outcome halive] at hafter
    refine hafter ⟨type, hremoves, hfind, ?_⟩
    rw [(hf.uid_of_requested hu).1, hbits, (hf.queued sent (hq ▸ List.mem_cons_self)).1]
  registered w sent type hh hstops i stream halive hs ht hn hu := by
    by_contra hne
    obtain ⟨k, outcome, rest, rfl, hw, hq⟩ := handled_eq_some hh
    refine ha.stops w sent type hh hstops k i ⟨w, hw, halive⟩ ⟨w, hw, hu, stream, hs, ht, hn⟩ ?_
    refine alive_workerMsg.mpr ⟨w, hw, ?_⟩
    rw [if_pos rfl, (h.workers k w hw).alive_processRtcMsg hq (RtcMsg.pullsOrStops_of_stops hstops)
      outcome halive]
    rintro ⟨type', hremoves, hfind, -⟩
    rw [RtcMsg.removes_of_stops hstops, Option.some.injEq] at hremoves
    exact hne (hremoves ▸ hfind)

theorem Faithful.along_actsByUid_iff {s : RtcServer} (h : s.Faithful) (es : List Event) :
    Runs.Along RtcServer.step ActsByUid s es ↔ Runs.Along RtcServer.step UidDecides s es :=
  Runs.along_iff (fun _ e h _ => h.step e) (fun _ _ h => ⟨h.uidDecides, h.actsByUid⟩) h es

/-- Along every run of a server with any number of workers, requests delete by the uid
that they carry as long as the low bits of the uid single out one stream. -/
theorem acts_by_uid_iff (workerNum : ℕ) (es : List Event) :
    Runs.Along step ActsByUid (init workerNum) es ↔
      Runs.Along step UidDecides (init workerNum) es :=
  (faithful_init workerNum).along_actsByUid_iff es

/-- A push request and a stop request of another user, 65536 apart. -/
def sameLowBits : List Event :=
  [.request ⟨0, 0, 5⟩ ⟨some cmdnoPush, some 1, some "n", some 1, some 1, some "", some none⟩ 0,
   .serverMsg true, .workerMsg 0 {},
   .request ⟨0, 0, 5⟩ ⟨some cmdnoStoppush, some 65537, some "n", none, none, none, none⟩ 0,
   .serverMsg true, .workerMsg 0 {}]

/-- The second user's stop request deletes the stream of the first. -/
theorem sameLowBits_deletes : ¬Runs.Along step ActsByUid (init 1) sameLowBits := by
  rw [(faithful_init 1).along_actsByUid_iff]
  rintro ⟨-, -, -, -, -, hd, -⟩
  have hfacts : (handled (run step (init 1) (sameLowBits.take 5)) (.workerMsg 0 {})).map
      (fun x => (RtcMsg.removes x.2.msg x.1.manager,
        x.1.manager.findStream .push x.2.msg.streamName, x.1.requested[0]?, x.2.requestedUid)) =
      some (some .push, some 0, some 1, 65537) := by decide +kernel
  obtain ⟨⟨w, sent⟩, hh, hx⟩ := Option.map_eq_some_iff.mp hfacts
  obtain ⟨hremoves, hfind, hu, huid⟩ : _ ∧ _ ∧ _ ∧ _ := by simpa using hx
  have hsame := hd.same w sent .push hh hremoves 0 1 hfind hu (huid ▸ by decide)
  exact absurd (hsame.trans huid) (by decide)

end RtcServer
end Server
end XrtcServer
