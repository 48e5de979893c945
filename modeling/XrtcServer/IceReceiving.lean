import XrtcServer.IceEffects
import XrtcServer.IceFailover

/-! Whether a connection is receiving: the packets that arrive on the connections of a run,
the time that each kind of packet leaves, and what `update_receiving` makes of them. -/
namespace XrtcServer
namespace Ice
open ByteFormat ObjectHeap Stun IceTransport

/-- A transport with the time of its last event and the packets that have arrived so far, the
last one first. -/
structure Heard where
  transport : IceTransport := {}
  clock : ℤ := 0
  arrivals : List Arrival := []

/-- Neither a packet of data nor a binding request has ever left its time. -/
structure IceConnection.Unstamped (k : IceConnection) : Prop where
  lastPingReceived : k.lastPingReceived = 0
  lastDataReceived : k.lastDataReceived = 0
  lastPingSent : 0 ≤ k.lastPingSent

theorem IceConnection.Unstamped.same {k k' : IceConnection} (h : k.Unstamped) (hsame : k.SameTimes k') :
    k'.Unstamped where
  lastPingReceived := hsame.lastPingReceived.trans h.lastPingReceived
  lastDataReceived := hsame.lastDataReceived.trans h.lastDataReceived
  lastPingSent := hsame.lastPingSent.symm ▸ h.lastPingSent

namespace Heard
variable (env : Environment)

def step (x : Heard) (e : Event) : Heard where
  transport := x.transport.step env e
  clock := e.now
  arrivals := (arrival env x.transport e).toList ++ x.arrivals

/-- The clock does not go back. -/
def Clocked (x : Heard) (e : Event) : Prop := 0 < e.now ∧ x.clock ≤ e.now

/-- The packet arrived on the connection, less than the timeout before the given time. -/
def Recent (c : ℕ) (now : ℤ) (a : Arrival) : Prop :=
  a.conn = c ∧ now < a.time + weakConnectionReceiveTimeout

/-- A connection on which a packet has arrived is receiving after `update_receiving`, and the
channel is receiving whenever one of its connections is, before and after that. -/
structure Receives (x : Heard) (c : ℕ) (now : ℤ) : Prop where
  connection : (∃ a ∈ x.arrivals, Recent c now a) →
    ((x.transport.updateReceiving env c now).conn c).receiving = true
  channel : ∀ s ∈ [x.transport, x.transport.updateReceiving env c now],
    ∀ c' ∈ s.connections, (s.conn c').receiving = true → s.receiving = true

/-- The connection has got a response to a ping, less than the timeout before or after the
last ping that it has sent. -/
def Answered (x : Heard) (c : ℕ) (now : ℤ) : Prop :=
  ∃ a ∈ x.arrivals, a.kind = .pingResponse ∧ a.conn = c ∧
    ((x.transport.conn c).lastPingSent < a.time ∨ now < a.time + weakConnectionReceiveTimeout)

/-- What the connections know of the arrivals: the times of the responses to their pings. -/
structure Stamped (x : Heard) : Prop where
  unstamped : ∀ c, (x.transport.conn c).Unstamped
  past : ∀ c, 0 ≤ (x.transport.conn c).lastPingResponseReceived ∧
    (x.transport.conn c).lastPingResponseReceived ≤ x.clock
  stamped : ∀ a ∈ x.arrivals, a.kind = .pingResponse →
    0 < a.time ∧ a.time ≤ (x.transport.conn a.conn).lastPingResponseReceived
  recorded : ∀ c, (x.transport.conn c).lastPingResponseReceived = 0 ∨
    ∃ a ∈ x.arrivals, a.kind = .pingResponse ∧ a.conn = c ∧
      a.time = (x.transport.conn c).lastPingResponseReceived
  known : ∀ a ∈ x.arrivals, a.conn < x.transport.memory.size
  agrees : x.transport.ReceivingAgrees

theorem stamped_empty : Stamped {} := by
  have hnone : ∀ c, ({} : IceTransport).conn c = blankConnection := fun c => by simp [conn, Heap.get?]
  refine ⟨fun c => ?_, fun c => ?_, fun a ha => ?_, fun c => ?_, fun a ha => ?_, rfl⟩
  · rw [hnone]
    exact ⟨rfl, rfl, le_refl _⟩
  · rw [hnone]
    exact ⟨le_refl _, le_refl _⟩
  · exact absurd ha List.not_mem_nil
  · rw [hnone]
    exact Or.inl rfl
  · exact absurd ha List.not_mem_nil

section Steps
variable {env} {x : Heard} {e : Event}

/-- An event that is no response to a ping leaves the times of the responses. -/
theorem Stamped.beside (h : Stamped x) (hclock : Clocked x e)
    (hunstamped : ∀ c, ((x.transport.step env e).conn c).Unstamped)
    (hresponses : ∀ c, ((x.transport.step env e).conn c).lastPingResponseReceived =
      (x.transport.conn c).lastPingResponseReceived)
    (hkind : ∀ a, arrival env x.transport e = some a → a.kind ≠ .pingResponse)
    (hsize : x.transport.memory.size ≤ (x.transport.step env e).memory.size)
    (hknown : ∀ a, arrival env x.transport e = some a → a.conn < (x.transport.step env e).memory.size)
    (hagrees : (x.transport.step env e).ReceivingAgrees) : Stamped (x.step env e) := by
  have hold : ∀ a ∈ (x.step env e).arrivals, arrival env x.transport e = some a ∨ a ∈ x.arrivals := by
    intro a ha
    rcases List.mem_append.mp ha with hnew | hbefore
    · exact Or.inl (Option.mem_toList.mp hnew)
    · exact Or.inr hbefore
  refine ⟨hunstamped, fun c => ?_, fun a ha hresponse => ?_, fun c => ?_, fun a ha => ?_, hagrees⟩
  · show 0 ≤ ((x.transport.step env e).conn c).lastPingResponseReceived ∧
      ((x.transport.step env e).conn c).lastPingResponseReceived ≤ e.now
    rw [hresponses]
    exact ⟨(h.past c).1, (h.past c).2.trans hclock.2⟩
  · show 0 < a.time ∧ a.time ≤ ((x.transport.step env e).conn a.conn).lastPingResponseReceived
    rw [hresponses]
    rcases hold a ha with hnew | hbefore
    · exact absurd hresponse (hkind a hnew)
    · exact h.stamped a hbefore hresponse
  · show ((x.transport.step env e).conn c).lastPingResponseReceived = 0 ∨
      ∃ a ∈ (x.step env e).arrivals, a.kind = .pingResponse ∧ a.conn = c ∧
        a.time = ((x.transport.step env e).conn c).lastPingResponseReceived
    rw [hresponses]
    apply (h.recorded c).imp_right
    rintro ⟨a, ha, hrest⟩
    exact ⟨a, List.mem_append_right _ ha, hrest⟩
  · rcases hold a ha with hnew | hbefore
    · exact hknown a hnew
    · exact (h.known a hbefore).trans_le hsize

theorem Stamped.answered (h : Stamped x) (hclock : Clocked x e) {c : ℕ} {rtt : ℤ}
    (hc : x.transport.memory.Alive c)
    (harrival : arrival env x.transport e = some ⟨c, .pingResponse, e.now⟩)
    (hstep : Settles (x.transport.modifyConn c fun k => k.recordPingResponse rtt e.now)
      (x.transport.step env e)) : Stamped (x.step env e) := by
  have hrecord : ∀ k : IceConnection, k.Unstamped → (k.recordPingResponse rtt e.now).Unstamped :=
    fun k hk => ⟨hk.lastPingReceived, hk.lastDataReceived, hk.lastPingSent⟩
  have hsize : (x.transport.step env e).memory.size = x.transport.memory.size :=
    hstep.size.trans (Heap.size_modify _ _ _)
  have hresponse : ∀ c', ((x.transport.step env e).conn c').lastPingResponseReceived =
      if c = c' then e.now else (x.transport.conn c').lastPingResponseReceived := by
    intro c'
    rw [(hstep.times c').lastPingResponseReceived, conn_modifyConn]
    by_cases hsame : c = c'
    · rw [if_pos ⟨hsame, hsame ▸ hc.1⟩, if_pos hsame]
      rfl
    · rw [if_neg fun hboth => hsame hboth.1, if_neg hsame]
  have harrivals : (x.step env e).arrivals = ⟨c, .pingResponse, e.now⟩ :: x.arrivals := by
    show (arrival env x.transport e).toList ++ x.arrivals = _
    rw [harrival]
    rfl
  refine ⟨fun c' => ?_, fun c' => ?_, fun a ha hkind => ?_, fun c' => ?_, fun a ha => ?_, ?_⟩
  · apply IceConnection.Unstamped.same _ (hstep.times c')
    rw [conn_modifyConn]
    split
    · exact hrecord _ (h.unstamped c')
    · exact h.unstamped c'
  · show 0 ≤ ((x.transport.step env e).conn c').lastPingResponseReceived ∧
      ((x.transport.step env e).conn c').lastPingResponseReceived ≤ e.now
    rw [hresponse]
    split
    · exact ⟨hclock.1.le, le_refl _⟩
    · exact ⟨(h.past c').1, (h.past c').2.trans hclock.2⟩
  · show 0 < a.time ∧ a.time ≤ ((x.transport.step env e).conn a.conn).lastPingResponseReceived
    rw [hresponse]
    rw [harrivals] at ha
    rcases List.mem_cons.mp ha with rfl | hbefore
    · simp [hclock.1]
    · have ⟨hpos, hle⟩ := h.stamped a hbefore hkind
      refine ⟨hpos, ?_⟩
      split
      · exact (hle.trans (h.past a.conn).2).trans hclock.2
      · exact hle
  · show ((x.transport.step env e).conn c').lastPingResponseReceived = 0 ∨
      ∃ a ∈ (x.step env e).arrivals, a.kind = .pingResponse ∧ a.conn = c' ∧
        a.time = ((x.transport.step env e).conn c').lastPingResponseReceived
    rw [hresponse, harrivals]
    by_cases hsame : c = c'
    · right
      exact ⟨⟨c, .pingResponse, e.now⟩, List.mem_cons_self, rfl, hsame, (if_pos hsame).symm⟩
    · rw [if_neg hsame]
      apply (h.recorded c').imp_right
      rintro ⟨a, ha, hrest⟩
      exact ⟨a, List.mem_cons_of_mem _ ha, hrest⟩
  · show a.conn < (x.transport.step env e).memory.size
    rw [hsize]
    rw [harrivals] at ha
    rcases List.mem_cons.mp ha with rfl | hbefore
    · exact hc.1
    · exact h.known a hbefore
  · apply hstep.receiving
    show x.transport.receiving = x.transport.connections.any _
    simp only [receiving_modifyConn x.transport c (f := fun k => k.recordPingResponse rtt e.now)
      fun _ => rfl]
    exact h.agrees

/-- No time of a connection is another one. -/
theorem Stamped.unchanged (h : Stamped x) (hclock : Clocked x e)
    (htimes : ∀ c, (x.transport.conn c).SameTimes ((x.transport.step env e).conn c))
    (hkind : ∀ a, arrival env x.transport e = some a → a.kind ≠ .pingResponse)
    (hsize : x.transport.memory.size ≤ (x.transport.step env e).memory.size)
    (hknown : ∀ a, arrival env x.transport e = some a → a.conn < (x.transport.step env e).memory.size)
    (hagrees : (x.transport.step env e).ReceivingAgrees) : Stamped (x.step env e) :=
  h.beside hclock (fun c => (h.unstamped c).same (htimes c)) (fun c => (htimes c).lastPingResponseReceived)
    hkind hsize hknown hagrees

theorem Stamped.pinged {now : ℤ} {id : Bytes} (h : Stamped x) (hclock : Clocked x (.timer now id))
    (hping : x.transport.step env (.timer now id) =
      Recorded.pingNext env now (x.transport.updateConnectionStates env now) id) :
    Stamped (x.step env (.timer now id)) := by
  have hstep := settles_updateConnectionStates env x.transport now
  have hattends := attends_pingNext env (x.transport.updateConnectionStates env now) now id
  rw [← hping] at hattends
  generalize x.transport.updateConnectionStates env now = u at hstep hattends
  have hnone : ∀ a, arrival env x.transport (.timer now id) ≠ some a := by
    intro a ha
    cases ha
  refine h.beside hclock (fun c => ?_) (fun c => ?_) (fun a ha => absurd ha (hnone a))
    (hattends.size.trans hstep.size).ge (fun a ha => absurd ha (hnone a))
    (hattends.receivingAgrees (hstep.receiving h.agrees))
  · have hunstamped := (h.unstamped c).same (hstep.times c)
    rcases hattends.conn c with hsame | ⟨_, hlater⟩
    · rw [hsame]
      exact hunstamped
    · rw [hlater]
      exact ⟨hunstamped.lastPingReceived, hunstamped.lastDataReceived, hclock.1.le⟩
  · exact (hattends.lastPingResponseReceived c).trans (hstep.times c).lastPingResponseReceived

theorem Stamped.step (h : Stamped x) (hclock : Clocked x e) : Stamped (x.step env e) := by
  have heffect := effect env x.transport e
  generalize ht : x.transport.step env e = t at heffect
  cases heffect with
  | settled harrival hstep =>
    subst ht
    exact h.unchanged hclock hstep.times (fun a ha => (harrival a ha).1) hstep.size.ge
      (fun a ha => (harrival a ha).2.trans_eq hstep.size.symm) (hstep.receiving h.agrees)
  | answered hc harrival hstep =>
    subst ht
    exact h.answered hclock hc harrival hstep
  | @added _ port remotePriority addr remoteUfrag harrival hstep hreceiving =>
    subst ht
    have htimes := fun c =>
      (sameTimes_addConnection env x.transport port addr remoteUfrag remotePriority c).trans (hstep.times c)
    have hsize : (x.transport.step env e).memory.size = x.transport.memory.size + 1 :=
      hstep.size.trans (Heap.size_alloc _ _)
    have hlast : ∀ a, arrival env x.transport e = some a →
        a.kind ≠ .pingResponse ∧ a.conn = x.transport.memory.size := by
      intro a ha
      rw [harrival] at ha
      rw [← Option.some.inj ha]
      simp
    exact h.unchanged hclock htimes (fun a ha => (hlast a ha).1) (by rw [hsize]; exact Nat.le_succ _)
      (fun a ha => by rw [hsize, (hlast a ha).2]; exact Nat.lt_succ_self _) hreceiving
  | pinged he =>
    subst he
    exact h.pinged hclock ht
  | destroyed hc harrival hstep =>
    subst ht
    exact h.unchanged hclock hstep.times (fun a ha => (harrival a ha).1) hstep.size.ge
      (fun a ha => (harrival a ha).2.trans_eq hstep.size.symm) hstep.receiving

end Steps

theorem stamped_run {es : List Event} (h : Runs.Along (step env) Clocked {} es) :
    Stamped (Runs.run (step env) {} es) :=
  Runs.invariant_run (fun _ _ hx hclock => hx.step hclock) stamped_empty h

section Result
variable {env} {x : Heard} {c : ℕ} {now : ℤ}

theorem receiving_updateReceiving (s : IceTransport) (hc : c < s.memory.size) :
    ((s.updateReceiving env c now).conn c).receiving = (s.conn c).receivingAt now := by
  unfold updateReceiving
  dsimp only
  split
  · rename_i hsame
    exact hsame
  · have ⟨_, hconn⟩ := (resorts env (s.modifyConn c fun k =>
      { k with receiving := (s.conn c).receivingAt now }) now).conn c
    rw [hconn, conn_modifyConn, if_pos ⟨rfl, hc⟩]

/-- Of the three times, only that of the last response counts. -/
theorem Stamped.receivingAt_iff (h : Stamped x) : (x.transport.conn c).receivingAt now = true ↔
    Answered x c now := by
  have hunstamped := h.unstamped c
  have hpast := (h.past c).1
  have hreceived : (x.transport.conn c).lastReceived = (x.transport.conn c).lastPingResponseReceived := by
    unfold IceConnection.lastReceived
    rw [hunstamped.lastPingReceived, hunstamped.lastDataReceived, max_eq_right hpast, max_eq_left hpast]
  unfold IceConnection.receivingAt
  rw [hreceived]
  constructor
  · intro hreceiving
    have htimes : 0 < (x.transport.conn c).lastPingResponseReceived ∧
        ((x.transport.conn c).lastPingSent < (x.transport.conn c).lastPingResponseReceived ∨
          now < (x.transport.conn c).lastPingResponseReceived + weakConnectionReceiveTimeout) := by
      split at hreceiving
      · rename_i hlater
        exact ⟨hunstamped.lastPingSent.trans_lt hlater, Or.inl hlater⟩
      · rw [Bool.and_eq_true, decide_eq_true_eq, decide_eq_true_eq] at hreceiving
        exact ⟨hreceiving.1, Or.inr hreceiving.2⟩
    rcases h.recorded c with hzero | ⟨a, ha, hkind, hconn, htime⟩
    · exact absurd hzero htimes.1.ne'
    · exact ⟨a, ha, hkind, hconn, htime.symm ▸ htimes.2⟩
  · rintro ⟨a, ha, hkind, rfl, htime⟩
    have ⟨hpos, hle⟩ := h.stamped a ha hkind
    split
    · rfl
    · rename_i hnot
      rw [Bool.and_eq_true, decide_eq_true_eq, decide_eq_true_eq]
      refine ⟨hpos.trans_le hle, ?_⟩
      rcases htime with hlater | hrecent
      · exact absurd (hlater.trans_le hle) hnot
      · omega

end Result

/-- In every run, the packets on a connection keep it receiving exactly if those that are no
responses to pings do not count: where one of them is recent, a response must be, or must have
come after the last ping. -/
theorem receives_iff (es : List Event) (c : ℕ) (now : ℤ)
    (hclock : Runs.Along (step env) Clocked {} es) :
    Receives env (Runs.run (step env) {} es) c now ↔
      ((∃ a ∈ (Runs.run (step env) {} es).arrivals, a.kind ≠ .pingResponse ∧ Recent c now a) →
        Answered (Runs.run (step env) {} es) c now) := by
  have h := stamped_run env hclock
  generalize Runs.run (step env) {} es = x at h ⊢
  constructor
  · rintro hreceives ⟨a, ha, -, hrecent⟩
    have hc : c < x.transport.memory.size := hrecent.1 ▸ h.known a ha
    rw [← h.receivingAt_iff, ← receiving_updateReceiving x.transport hc]
    exact hreceives.connection ⟨a, ha, hrecent⟩
  · intro hanswered
    refine ⟨fun ⟨a, ha, hrecent⟩ => ?_, fun s hs c' hc' hreceiving => ?_⟩
    · have hc : c < x.transport.memory.size := hrecent.1 ▸ h.known a ha
      rw [receiving_updateReceiving x.transport hc, h.receivingAt_iff]
      by_cases hkind : a.kind = .pingResponse
      · exact ⟨a, ha, hkind, hrecent.1, Or.inr hrecent.2⟩
      · exact hanswered ⟨a, ha, hkind, hrecent⟩
    · have hagrees : s.ReceivingAgrees := by
        rcases List.mem_pair.mp hs with rfl | rfl
        · exact h.agrees
        · exact (settles_updateReceiving env x.transport c now).receiving h.agrees
      rw [hagrees]
      exact List.any_eq_true.mpr ⟨c', hc', hreceiving⟩

theorem transport_run (x : Heard) (es : List Event) :
    (Runs.run (step env) x es).transport = Runs.run (IceTransport.step env) x.transport es := by
  induction es generalizing x with
  | nil => rfl
  | cons e es ih => exact ih (x.step env e)

theorem mem_arrivals_step {env : Environment} {x : Heard} {e : Event} {a : Arrival}
    (h : arrival env x.transport e = some a) : a ∈ (x.step env e).arrivals := by
  show a ∈ (arrival env x.transport e).toList ++ x.arrivals
  rw [h]
  exact List.mem_cons_self

theorem clocked_step {env : Environment} (x : Heard) (e e' : Event) :
    Clocked (x.step env e) e' ↔ 0 < e'.now ∧ e.now ≤ e'.now := Iff.rfl

/-- The first ping has its response. -/
theorem receives_answered : Receives failoverEnvironment (Runs.run (step failoverEnvironment) {}
    (askedEvents ++ [.packet 0 peerAddress firstResponse 1060])) 0 3000 := by
  have hclock : Runs.Along (step failoverEnvironment) Clocked {}
      (askedEvents ++ [.packet 0 peerAddress firstResponse 1060]) := by
    simp only [askedEvents, List.cons_append, List.nil_append, Runs.along_cons, Runs.along_nil,
      clocked_step, Event.now, and_true]
    refine ⟨⟨?_, ?_⟩, ⟨?_, ?_⟩, ⟨?_, ?_⟩, ?_, ?_⟩ <;> decide
  refine (receives_iff _ _ _ _ hclock).mpr fun _ => ?_
  have htransport := (transport_run failoverEnvironment {} askedEvents).trans run_asked
  rw [Runs.run_append]
  generalize Runs.run (step failoverEnvironment) {} askedEvents = x at htransport ⊢
  have hkind : packetKind failoverEnvironment (askedTransport.conn 0) firstResponse = some .pingResponse :=
    (packetKind_checkResponse (remote_asked ▸ onReadPacket_firstResponse)).mpr
      ⟨{ id := pingId 1, type := stunBindingRequest, ts := 1050 }, by decide +kernel⟩
  have harrival : arrival failoverEnvironment x.transport (.packet 0 peerAddress firstResponse 1060) =
      some ⟨0, .pingResponse, 1060⟩ := by
    rw [htransport, arrival_known (c := 0) (by decide +kernel) (by decide +kernel), hkind]
    rfl
  have hping : ((x.transport.step failoverEnvironment
      (.packet 0 peerAddress firstResponse 1060)).conn 0).lastPingSent < 1060 := by
    rw [htransport, step_asked]
    decide +kernel
  exact ⟨_, mem_arrivals_step harrival, rfl, rfl, Or.inl hping⟩

/-- An RTP packet. -/
def mediaPacket : Bytes := [128, 111, 0, 1, 0, 0, 0, 0, 0, 0, 0, 1, 7]

/-- After the first ping, which has no response yet, a packet of media arrives 100 ms before the
connection is looked at. -/
theorem unheard_media : ¬Receives failoverEnvironment (Runs.run (step failoverEnvironment) {}
    (askedEvents ++ [.packet 0 peerAddress mediaPacket 1400])) 0 1500 := by
  have htransport := (transport_run failoverEnvironment {} askedEvents).trans run_asked
  rw [Runs.run_append]
  generalize Runs.run (step failoverEnvironment) {} askedEvents = x at htransport ⊢
  intro hreceives
  have harrival : arrival failoverEnvironment x.transport (.packet 0 peerAddress mediaPacket 1400) =
      some ⟨0, .data, 1400⟩ := by
    rw [htransport]
    decide +kernel
  have hreceiving := hreceives.connection ⟨_, mem_arrivals_step harrival, rfl, by decide⟩
  have hstill : (((x.transport.step failoverEnvironment (.packet 0 peerAddress mediaPacket
      1400)).updateReceiving failoverEnvironment 0 1500).conn 0).receiving = false := by
    rw [htransport]
    decide +kernel
  exact Bool.false_ne_true (hstill.symm.trans hreceiving)

end Heard
end Ice
end XrtcServer
