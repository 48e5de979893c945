import XrtcServer.FeedbackLink
import XrtcServer.ReportSchedule
import XrtcServer.NackInvariants

/-! The requests for lost packets of a receive stream on their way to the sender of the packets. -/
namespace XrtcServer
namespace Video
open XrtcServer.Rtcp (Nack)

/-- The batches that were signalled, the first one first. -/
def batches (history : List Mark) : List (List UInt16) :=
  history.reverse.filterMap fun
    | .sent batch _ _ _ => some batch
    | _ => none

theorem batches_sent (batch list : List UInt16) (now : ℕ) (rttMs : ℤ) (history : List Mark) :
    batches (.sent batch list now rttMs :: history) = batches history ++ [batch] := by
  simp [batches]

theorem batches_received (x : UInt16) (history : List Mark) :
    batches (.received x :: history) = batches history := by simp [batches]

theorem batches_added (x : UInt16) (history : List Mark) :
    batches (.added x :: history) = batches history := by simp [batches]

/-- Numbers that come closer to one in front of them go forward. -/
theorem Ordered.isChain {r : UInt16} {keys : List UInt16} (h : Ordered r keys)
    (hnear : ∀ k ∈ keys, (r - k).toNat ≤ kMaxPacketAge.toNat) : keys.IsChain Nack.Ahead := by
  have hage : kMaxPacketAge.toNat = 10000 := rfl
  refine (List.Pairwise.imp_of_mem ?_ h).isChain
  intro a b ha hb hlt
  have hnearA := hnear a ha
  have hra := r.toNat_lt
  have hka := a.toNat_lt
  have hkb := b.toNat_lt
  rw [Nack.Ahead]
  simp only [UInt16.toNat_sub] at hlt hnearA ⊢
  omega

namespace NackRequester
variable {env : Environment} {s t : NackRequester} {options : NackFilterOptions} {r x : UInt16} {n : ℕ}

/-- Nothing is signalled, or one batch whose numbers go forward. -/
def Signals (s t : NackRequester) : Prop :=
  batches t.history = batches s.history ∨ ∃ batch, batch ≠ [] ∧ batch.IsChain Nack.Ahead ∧
    batches t.history = batches s.history ++ [batch]

theorem ValidAt.signals_sendBatch (h : ValidAt r n s) : Signals s (s.sendBatch env options) := by
  have hsub : (s.getNackBatch env options).2.Sublist s.keys := h.batch_sublist
  unfold NackRequester.sendBatch
  dsimp only
  split
  · exact .inl rfl
  · next hne =>
    refine .inr ⟨_, hne, ?_, batches_sent _ _ _ _ _⟩
    refine Ordered.isChain (List.Pairwise.sublist hsub h.ordered) fun k hk => ?_
    have hbehind := h.behind k (hsub.subset hk)
    omega

theorem batches_addNumbers : batches (s.addNumbers env n x).history = batches s.history := by
  induction n generalizing s x with
  | zero => rfl
  | succ n ih =>
    rw [addNumbers, ih, note, batches_added, setNack]
    dsimp only
    split <;> rfl

theorem batches_addPacketsToNack :
    batches (s.addPacketsToNack env (r + 1) x).history = batches s.history := by
  rw [addPacketsToNack_eq x rfl]
  have htrims : Trims s (s.withoutOld env x) := trims_withoutOld x
  generalize s.withoutOld env x = t at htrims ⊢
  dsimp only
  generalize hu : (if t.nackList.length + (x - (r + 1)).toNat > kMaxNackPackets then
    t.makeRoom env (x - (r + 1)).toNat else t) = u
  have hroom : Trims t u := by
    rw [← hu]
    split
    · exact trims_makeRoom _
    · exact Trims.refl t
  have hsame := congrArg batches (htrims.trans hroom).history
  split
  · exact hsame
  · exact batches_addNumbers.trans hsame

theorem Valid.signals_newPacket (h : ValidAt s.newestSeqNum 0 s) (hne : x ≠ s.newestSeqNum)
    (isKeyframe : Bool) : Signals s (s.onNewPacket env x isKeyframe) := by
  have hkeyframe : Trims s (if isKeyframe then s.insertKeyframe env x else s) := by
    split
    · exact trims_insertKeyframe x
    · exact Trims.refl s
  unfold NackRequester.onNewPacket
  dsimp only
  generalize (if isKeyframe then s.insertKeyframe env x else s) = u at hkeyframe ⊢
  have htrims : Trims s (u.trimKeyframes env x) :=
    hkeyframe.trans ⟨List.Sublist.refl _, rfl, rfl, rfl, rfl⟩
  have hnewest : u.newestSeqNum = s.newestSeqNum := hkeyframe.newestSeqNum
  generalize u.trimKeyframes env x = v at htrims ⊢
  have hadded : ValidAt x 0 (v.addPacketsToNack env (s.newestSeqNum + 1) x) :=
    (h.shrink htrims).addPacketsToNack hne
  have hsame : batches (v.addPacketsToNack env (s.newestSeqNum + 1) x).history = batches s.history :=
    batches_addPacketsToNack.trans (congrArg batches htrims.history)
  rw [hnewest]
  generalize v.addPacketsToNack env (s.newestSeqNum + 1) x = w at hadded hsame ⊢
  have hsignals : Signals { w with newestSeqNum := x } (NackRequester.sendBatch env
      { w with newestSeqNum := x } .seqNumOnly) := (hadded.withNewest x).signals_sendBatch
  unfold Signals at hsignals ⊢
  dsimp only at hsignals
  rwa [hsame] at hsignals

theorem history_onOldPacket (isRetransmitted : Bool) :
    (s.onOldPacket env x isRetransmitted).1.history = s.history := by
  unfold onOldPacket
  dsimp only
  cases isRetransmitted with
  | true =>
    rw [if_pos rfl]
    split <;> rfl
  | false =>
    rw [if_neg (by decide)]
    simp only [updateReorderingStat]
    split <;> rfl

theorem Valid.signals (h : Valid s) (e : Event) : Signals s (s.step env e) := by
  cases e with
  | packet seqNum isKeyframe isRetransmitted =>
    unfold NackRequester.step NackRequester.onReceivedPacket
    dsimp only
    split
    · left
      split
      · exact (congrArg batches (trims_insertKeyframe seqNum).history).trans (batches_received _ _)
      · exact batches_received _ _
    · next hinitialized =>
      split
      · exact .inl (batches_received _ _)
      · next hne =>
        split
        · left
          rw [history_onOldPacket]
          exact batches_received _ _
        · next hahead =>
          have hmiss := not_mem_of_not_ahead h.toValidAt (Bool.eq_false_iff.mpr hahead)
          have hreceived : ValidAt (s.note (.received seqNum)).newestSeqNum 0
              (s.note (.received seqNum)) := h.toValidAt.receive hmiss
          have hsignals : Signals (s.note (.received seqNum))
              ((s.note (.received seqNum)).onNewPacket env seqNum isKeyframe) :=
            Valid.signals_newPacket hreceived hne isKeyframe
          unfold Signals at hsignals ⊢
          rwa [show batches (s.note (.received seqNum)).history = batches s.history from
            batches_received _ _] at hsignals
  | tick => exact h.toValidAt.signals_sendBatch
  | updateRtt rttMs => exact .inl rfl
  | wait ms => exact .inl rfl

end NackRequester
end Video

namespace Rtcp
open ByteFormat
open XrtcServer.Video (NackRequester batches)

namespace RTCPSender
variable {s : RTCPSender} {call : Call}

theorem Built.ids_of_type {p : Built} (h : p.type ≠ kRtcpNack) : p.ids = [] := by
  cases p with
  | sr report => rfl
  | rr report => rfl
  | nack n => exact absurd rfl h

theorem Built.reports_of_type {p : Built} (h : p.type ≠ kRtcpSr) : p.reports = [] := by
  cases p with
  | sr report => exact absurd rfl h
  | rr report => rfl
  | nack n => rfl

/-- A NACK goes behind the report that every call brings. -/
theorem prepareAndBuild_nack (hs : s.reportFlags = [⟨kRtcpNack, true⟩]) (hsending : s.sending = false) :
    (s.prepareAndBuild call).2.flatMap Built.ids = call.nackList := by
  have hreport : s.reportType = kRtcpRr := by simp [reportType, hsending]
  have hconsume : s.consumeFlag kRtcpReport false = (s, false) := by
    rw [consumeFlag_single hs, if_neg (by decide)]
  have hflags : (s.prepareReport call).reportFlags = [⟨kRtcpRr, true⟩, ⟨kRtcpNack, true⟩] := by
    unfold prepareReport
    simp only [hconsume, hsending, Bool.false_eq_true, if_false, setNextRtcpSendEvaluationDuration, setFlag, hs]
    rfl
  rw [prepareAndBuild, hflags]
  simp [buildFlags, build, buildRR, buildNACK, Built.ids, Nack.setPacketIds, kRtcpRr, kRtcpSr, kRtcpNack]

theorem sending_of_rest {t : RTCPSender} (h : s.rest = t.rest) : s.sending = t.sending := by
  have hsending : s.rest.sending = t.rest.sending := congrArg RTCPSender.sending h
  exact hsending

@[simp] theorem sending_setFlag (type : UInt32) : (s.setFlag type).sending = s.sending :=
  sending_of_rest (rest_setFlag type)

@[simp] theorem sending_sendRTCP : (s.sendRTCP call).1.sending = s.sending :=
  sending_of_rest (sendRTCP_plans s call).1

/-- What a side that sends no media makes of its calls: every list of numbers goes out with the call that
has it, and no sender report does. -/
structure Answers (s : RTCPSender) (call : Call) : Prop where
  flags : (s.sendRTCP call).1.reportFlags = []
  ids : (s.sendRTCP call).2.1.flatMap Built.ids = if call.packetType = kRtcpNack then call.nackList else []
  reports : (s.sendRTCP call).2.1.flatMap Built.reports = []

theorem answers (hs : s.reportFlags = []) (hsending : s.sending = false) (htype : call.packetType = kRtcpNack ∨
    call.packetType = kRtcpRr ∨ call.packetType = kRtcpReport) : Answers s call := by
  have hreport : s.reportType = kRtcpRr := by simp [reportType, hsending]
  have hnotRefused : ¬Refused s call := fun h => by
    have := hsending.symm.trans h.2.1
    cases this
  have hnotSr : call.packetType ≠ kRtcpSr := by
    rcases htype with h | h | h <;> rw [h] <;> decide
  rcases sendRTCP_cases call hs with ⟨hrefused, -⟩ | ⟨-, hnotNack, hflags, hnone⟩ | ⟨-, hflags, htypes, -⟩
  · exact absurd hrefused hnotRefused
  · exact ⟨hflags, by rw [hnone, if_neg hnotNack]; rfl, by rw [hnone]; rfl⟩
  · refine ⟨hflags, ?_, List.flatMap_eq_nil_iff.mpr fun p hp => Built.reports_of_type ?_⟩
    · split
      · next hnack =>
        have hset : (s.setFlag kRtcpNack).reportFlags = [⟨kRtcpNack, true⟩] := reportFlags_setFlag_nil hs _
        have hbuilt := @prepareAndBuild_nack _ call hset ((sending_setFlag _).trans hsending)
        have hconsume (type : UInt32) (hne : kRtcpNack ≠ type) :
            (s.setFlag kRtcpNack).consumeFlag type false = (s.setFlag kRtcpNack, false) := by
          rw [consumeFlag_single hset, if_neg hne]
        unfold sendRTCP computeCompoundRTCPPacket
        simp only [hnack, hconsume kRtcpSr (by decide), hconsume kRtcpReport (by decide),
          sending_setFlag, hsending, Bool.or_self, Bool.false_and, Bool.false_eq_true, if_false]
        split_ifs <;> exact hbuilt
      · next hnotNack =>
        refine List.flatMap_eq_nil_iff.mpr fun p hp => Built.ids_of_type ?_
        rcases htypes p hp with heq | heq
        · rw [heq]
          exact hnotNack
        · rw [heq, hreport]
          decide
    · rcases htypes p hp with heq | heq
      · rw [heq]
        exact hnotSr
      · rw [heq, hreport]
        decide

end RTCPSender

/-- A video receive stream as far as it asks for packets: its requester, the sender of its RTCP, and the
datagrams that went out. -/
structure NackLink where
  requester : NackRequester := {}
  sender : RTCPSender
  sent : List Bytes := []

namespace NackLink

/-- The stream is made in compound mode and sends no media. -/
def create (localSsrc remoteSsrc : UInt32) (clockRate reportInterval now : ℤ) : NackLink :=
  let sender : RTCPSender := { localSsrc, remoteSsrc, clockRate, reportInterval }
  { sender := { sender.setRTCPStatus .compound now with sending := false } }

def sendRTCP (s : NackLink) (call : Call) : NackLink :=
  let result := s.sender.sendRTCP call
  { s with sender := result.1, sent := s.sent ++ localRtcpPackets result.2.1 }

/-- `OnNackSend`. -/
def sendNack (call : Call) (s : NackLink) (sequenceNumbers : List UInt16) : NackLink :=
  s.sendRTCP { call with packetType := kRtcpNack, nackList := sequenceNumbers }

def timeToSendRTCPPacket (s : NackLink) (now : ℤ) : Bool :=
  match s.sender.nextTimeToSendRtcp with
  | none => false
  | some time => now ≥ time

/-- Something happens to the requester, which may signal a batch; the timer of the receiver reports
ticks; a report that was planned is due; or the stream is told of a frame. -/
inductive Event
  | requester (e : NackRequester.Event) (call : Call)
  | receiveReport (call : Call)
  | maybeSendRTCP (call : Call)
  | sendingFrame (rtpTimestamp : UInt32) (captureTime : Option ℤ) (call : Call)

/-- The batches of the requester that are new. -/
def signalled (before after : NackRequester) : List (List UInt16) :=
  (batches after.history).drop (batches before.history).length

def maybeSendRTCP (s : NackLink) (call : Call) : NackLink :=
  if s.timeToSendRTCPPacket call.now then
    s.sendRTCP { call with packetType := kRtcpReport, nackList := [] }
  else s

def step (env : Video.Environment) (s : NackLink) : Event → NackLink
  | .requester e call =>
    let requester := s.requester.step env e
    (signalled s.requester requester).foldl (sendNack call) { s with requester }
  | .receiveReport call => s.sendRTCP { call with packetType := kRtcpRr, nackList := [] }
  | .maybeSendRTCP call => s.maybeSendRTCP call
  | .sendingFrame rtpTimestamp captureTime call =>
    { s with sender := s.sender.setLastRtpTimestamp rtpTimestamp captureTime call.now }.maybeSendRTCP call

/-- A receiver in whatever state hears of these lists, and nothing else becomes of the datagram. -/
def Requests (datagram : Bytes) (lists : List (List UInt16)) : Prop :=
  ∀ (s : RTCPReceiver) (clock : Clock), s.incomingRtcpPacket clock datagram =
    { s with rtpRtcpModuleObserver :=
        s.rtpRtcpModuleObserver.map (· ++ lists.map (.nackReceived s.audio)) }

theorem hear_nacks (clock : Clock) {messages : List Message} (h : messages.filterMap Message.report = [])
    (s : RTCPReceiver) : messages.foldl (RTCPReceiver.hear clock) s =
      { s with rtpRtcpModuleObserver := s.rtpRtcpModuleObserver.map
                (· ++ (messages.map Message.ids).map (.nackReceived s.audio)) } := by
  induction messages generalizing s with
  | nil =>
    obtain ⟨audio, ssrcs, observer, rest⟩ := s
    simp
  | cons message messages ih =>
    cases message with
    | senderReport report => cases h
    | nack ids =>
      rw [List.foldl_cons, ih h, RTCPReceiver.hear, RTCPReceiver.tell]
      simp [Message.ids, Function.comp_def]

theorem requests_of_means {datagrams : List Bytes} {said : List (List Message)}
    (h : List.Forall₂ Means datagrams said) (hreports : said.flatten.filterMap Message.report = []) :
    List.Forall₂ Requests datagrams (said.map fun messages => messages.map Message.ids) ∧
      (said.map fun messages => messages.map Message.ids).flatten.flatten
        = said.flatten.flatMap Message.ids := by
  induction h with
  | nil => exact ⟨List.Forall₂.nil, rfl⟩
  | @cons datagram messages datagrams said hmeans _ ih =>
    rw [List.flatten_cons, List.filterMap_append, List.append_eq_nil_iff] at hreports
    obtain ⟨hrest, hflat⟩ := ih hreports.2
    refine ⟨List.Forall₂.cons (fun s clock => ?_) hrest, ?_⟩
    · rw [hmeans, hear_nacks clock hreports.1]
    · have hids : messages.flatMap Message.ids = (messages.map Message.ids).flatten := List.flatMap_def
      rw [List.map_cons, List.flatten_cons, List.flatten_append, hflat, List.flatten_cons,
        List.flatMap_append, hids]

/-- What has been asked for is what the datagrams ask for, and the sender has nothing left to say. -/
structure Asks (s : NackLink) : Prop where
  valid : s.requester.Valid
  flags : s.sender.reportFlags = []
  sending : s.sender.sending = false
  heard : ∃ heard, List.Forall₂ Requests s.sent heard ∧
    heard.flatten.flatten = (batches s.requester.history).flatten

variable {s : NackLink}

/-- A call adds the datagrams of its list. -/
theorem sendRTCP_requests (hflags : s.sender.reportFlags = []) (hsending : s.sender.sending = false)
    {call : Call} (hids : call.nackList.IsChain Nack.Ahead) (htype : call.packetType = kRtcpNack ∨
      call.packetType = kRtcpRr ∨ call.packetType = kRtcpReport) :
    (s.sendRTCP call).sender.reportFlags = [] ∧ (s.sendRTCP call).sender.sending = false ∧
      ∃ lists, List.Forall₂ Requests (localRtcpPackets (s.sender.sendRTCP call).2.1) lists ∧
        lists.flatten.flatten = if call.packetType = kRtcpNack then call.nackList else [] := by
  have hanswers := RTCPSender.answers hflags hsending htype
  refine ⟨hanswers.flags, RTCPSender.sending_sendRTCP.trans hsending, ?_⟩
  obtain ⟨said, hmeans, hsaid, hreports, -⟩ :=
    localRtcpPackets_mean fun p hp => RTCPSender.regular_of_mem_sendRTCP (s := s.sender) hids hp
  rw [hanswers.ids] at hsaid
  rw [hanswers.reports] at hreports
  obtain ⟨hrequests, hflat⟩ := requests_of_means hmeans hreports
  exact ⟨_, hrequests, hflat.trans hsaid⟩

/-- One more call, with a list that the requester has just signalled or with none. -/
theorem heard_sendRTCP {asked : List UInt16} (hflags : s.sender.reportFlags = [])
    (hsending : s.sender.sending = false)
    (heard : ∃ heard, List.Forall₂ Requests s.sent heard ∧ heard.flatten.flatten = asked)
    {call : Call} (hids : call.nackList.IsChain Nack.Ahead) (htype : call.packetType = kRtcpNack ∨
      call.packetType = kRtcpRr ∨ call.packetType = kRtcpReport) :
    (s.sendRTCP call).sender.reportFlags = [] ∧ (s.sendRTCP call).sender.sending = false ∧
      ∃ heard, List.Forall₂ Requests (s.sendRTCP call).sent heard ∧
        heard.flatten.flatten = asked ++ if call.packetType = kRtcpNack then call.nackList else [] := by
  obtain ⟨hflags', hsending', lists, hlists, hflat⟩ := sendRTCP_requests hflags hsending hids htype
  obtain ⟨heard, hheard, hasked⟩ := heard
  refine ⟨hflags', hsending', heard ++ lists, List.rel_append hheard hlists, ?_⟩
  rw [List.flatten_append, List.flatten_append, hasked, hflat]

theorem Asks.sendRTCP (h : Asks s) {call : Call} (hids : call.nackList = [])
    (htype : call.packetType = kRtcpRr ∨ call.packetType = kRtcpReport) : Asks (s.sendRTCP call) := by
  have hchain : call.nackList.IsChain Nack.Ahead := by
    rw [hids]
    exact .nil
  obtain ⟨hflags, hsending, heard⟩ := heard_sendRTCP h.flags h.sending h.heard hchain (.inr htype)
  rw [hids, ite_self, List.append_nil] at heard
  exact ⟨h.valid, hflags, hsending, heard⟩

theorem Asks.maybeSendRTCP (h : Asks s) (call : Call) : Asks (s.maybeSendRTCP call) := by
  rw [NackLink.maybeSendRTCP]
  split
  · exact h.sendRTCP rfl (.inr rfl)
  · exact h

theorem Asks.step {env : Video.Environment} (h : Asks s) (e : Event) : Asks (s.step env e) := by
  cases e with
  | requester e call =>
    have hvalid : (s.requester.step env e).Valid := h.valid.step e
    have hsignals : NackRequester.Signals s.requester (s.requester.step env e) := h.valid.signals e
    rw [NackLink.step]
    rcases hsignals with hsame | ⟨batch, -, hchain, hone⟩
    · rw [signalled, hsame, List.drop_length]
      refine ⟨hvalid, h.flags, h.sending, ?_⟩
      rw [List.foldl_nil, hsame]
      exact h.heard
    · rw [signalled, hone, List.drop_left]
      obtain ⟨hflags, hsending, heard⟩ := @heard_sendRTCP { s with requester := s.requester.step env e } _
        h.flags h.sending h.heard { call with packetType := kRtcpNack, nackList := batch } hchain (.inl rfl)
      refine ⟨hvalid, hflags, hsending, ?_⟩
      change ∃ heard, List.Forall₂ Requests _ heard ∧
        heard.flatten.flatten = (batches (s.requester.step env e).history).flatten
      rw [hone, List.flatten_append, List.flatten_singleton]
      rwa [if_pos rfl] at heard
  | receiveReport call => exact h.sendRTCP rfl (.inl rfl)
  | maybeSendRTCP call => exact h.maybeSendRTCP call
  | sendingFrame rtpTimestamp captureTime call =>
    have hframe : Asks { s with sender := s.sender.setLastRtpTimestamp rtpTimestamp captureTime call.now } :=
      ⟨h.valid, h.flags, h.sending, h.heard⟩
    exact hframe.maybeSendRTCP call

theorem asks_create (localSsrc remoteSsrc : UInt32) (clockRate reportInterval now : ℤ) :
    Asks (create localSsrc remoteSsrc clockRate reportInterval now) :=
  ⟨NackRequester.valid_start 0, rfl, rfl, [], List.Forall₂.nil, rfl⟩

/-- In every run of a receive stream, what its datagrams ask for is, number by number, what the requester
has asked for; each datagram is understood by itself, whatever became of the others. -/
theorem requests_arrive (env : Video.Environment) (localSsrc remoteSsrc : UInt32)
    (clockRate reportInterval now : ℤ) (es : List Event) :
    let s := Runs.run (step env) (create localSsrc remoteSsrc clockRate reportInterval now) es
    ∃ heard, List.Forall₂ Requests s.sent heard ∧
      heard.flatten.flatten = (batches s.requester.history).flatten := by
  have hinv : Asks (Runs.run (step env) (create localSsrc remoteSsrc clockRate reportInterval now) es) := by
    have hstart := asks_create localSsrc remoteSsrc clockRate reportInterval now
    generalize create localSsrc remoteSsrc clockRate reportInterval now = s at hstart ⊢
    induction es generalizing s with
    | nil => exact hstart
    | cons e es ih => exact ih _ (hstart.step e)
  exact hinv.heard

end NackLink
end Rtcp
end XrtcServer
