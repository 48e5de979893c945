import XrtcServer.IceSorting

/-! Failover: when the channel selects a writable connection, although the selected one is
not writable any more. -/
namespace XrtcServer
namespace Ice
open ByteFormat ObjectHeap Stun

namespace IceTransport

def AnyWritable (s : IceTransport) : Prop := ∃ c ∈ s.connections, (s.conn c).writable = true

/-- The controller's selected connection is not deleted. -/
def RemembersLive (s : IceTransport) : Prop := ∀ c, s.controllerSelected = some c → s.memory.Alive c

/-- The connections that the sort puts in front have a round-trip time that is smaller than
this one's by the minimum for a switch. -/
def BestImproves (env : Environment) (s : IceTransport) (sel : ℕ) : Prop :=
  ∀ b ∈ s.connections, (∀ c ∈ s.connections, s.sortsBefore env c b = false) →
    (s.conn b).rtt ≤ (s.conn sel).rtt - kMinImprovement

/-- If a connection is writable, then the controller's selected connection is not deleted,
and there is none, or the channel's is writable, or the best one improves on it. -/
def CanFailOver (env : Environment) (s : IceTransport) : Prop :=
  s.AnyWritable → s.RemembersLive ∧ ∀ sel, s.controllerSelected = some sel →
    s.selectedWritable = true ∨ s.BestImproves env sel

section Switch
variable {env : Environment} {s : IceTransport} {top : ℕ}

/-- With a writable connection at hand, the one in front is writable. -/
theorem AnyWritable.front (env : Environment) (h : s.AnyWritable) :
    ∃ top, (s.sortConnections env).connections.head? = some top ∧ (s.conn top).writable = true := by
  have ⟨c, hc, hwritable⟩ := h
  cases hhead : (s.sortConnections env).connections.head? with
  | none =>
    have hmem : c ∈ (s.sortConnections env).connections := List.mem_mergeSort.mpr hc
    simp [List.head?_eq_none_iff.mp hhead] at hmem
  | some top =>
    refine ⟨top, rfl, ?_⟩
    have hle := writeState_le_of_rank_le (rank_head_le hhead hc)
    simp only [IceConnection.writable, decide_eq_true_eq] at hwritable ⊢
    rw [hwritable] at hle
    cases hstate : (s.conn top).writeState with
    | writable => rfl
    | writeUnreliable => simp [hstate, WriteState.toNat] at hle
    | writeInit => simp [hstate, WriteState.toNat] at hle
    | writeTimeout => simp [hstate, WriteState.toNat] at hle

theorem bestImproves_iff (h : (s.sortConnections env).connections.head? = some top) (sel : ℕ) :
    s.BestImproves env sel ↔ (s.conn top).rtt ≤ (s.conn sel).rtt - kMinImprovement := by
  have hfirst : ∀ c ∈ s.connections, s.sortsBefore env c top = false := by
    intro c hc
    rw [← Bool.not_eq_true, sortsBefore_iff, not_lt]
    exact rank_head_le h hc
  constructor
  · exact fun hbest => hbest top (mem_of_head h) hfirst
  · intro hrtt b hb hbfirst
    have hle : s.rank env b ≤ s.rank env top := by
      have hnot := hbfirst top (mem_of_head h)
      rwa [← Bool.not_eq_true, sortsBefore_iff, not_lt] at hnot
    rw [rtt_eq_of_rank_eq (le_antisymm hle (rank_head_le h hb))]
    exact hrtt

/-- A writable connection in front is switched to, unless it does not improve on the
controller's selected one. -/
theorem nextSelected_eq (h : (s.sortConnections env).connections.head? = some top)
    (hwritable : (s.conn top).writable = true) :
    s.nextSelected env =
      match s.controllerSelected with
      | none => some top
      | some sel =>
        if (s.conn top).rtt ≤ (s.conn sel).rtt - kMinImprovement then some top else s.selected := by
  have hready : (s.sortConnections env).readyToSend (some top) = true := by
    show ((s.conn top).writable || _) = true
    rw [hwritable, Bool.true_or]
  have hsel : (s.sortConnections env).controllerSelected = s.controllerSelected := rfl
  have hrtt : ∀ c, ((s.sortConnections env).conn c).rtt = (s.conn c).rtt := fun c => rfl
  unfold nextSelected connectionToSwitchTo
  simp only [h, hready, hsel, hrtt]
  cases s.controllerSelected with
  | none => simp
  | some sel =>
    by_cases himproves : (s.conn top).rtt ≤ (s.conn sel).rtt - kMinImprovement
    · have hsame : sel ≠ top := by
        rintro rfl
        have hpositive : 0 < kMinImprovement := by decide
        omega
      simp [hsame, himproves]
    · by_cases hsame : sel = top
      · simp [hsame, hsame ▸ himproves]
      · simp [hsame, himproves]

theorem Sorts.anyWritable_iff {t : IceTransport} (h : Sorts env s t) :
    t.AnyWritable ↔ s.AnyWritable := by
  unfold AnyWritable
  simp only [h.connections, writable_congr h.writeState]

/-- With a writable connection at hand, the call selects a writable one exactly if it can. -/
theorem Sorts.selectedWritable_iff {t : IceTransport} (h : Sorts env s t) (hany : s.AnyWritable) :
    t.selectedWritable = true ↔ ∀ sel, s.controllerSelected = some sel →
      s.selectedWritable = true ∨ s.BestImproves env sel := by
  have ⟨top, hhead, hwritable⟩ := hany.front env
  have hfront : t.selected = some top → t.selectedWritable = true := by
    intro hsel
    unfold selectedWritable
    rw [hsel]
    exact (writable_congr h.writeState top).trans hwritable
  have hselected := h.selected.trans (nextSelected_eq hhead hwritable)
  cases hcontroller : s.controllerSelected with
  | none =>
    rw [hcontroller] at hselected
    simp [hfront hselected]
  | some sel =>
    rw [hcontroller] at hselected
    dsimp only at hselected
    simp only [Option.some.injEq, forall_eq', bestImproves_iff hhead]
    by_cases himproves : (s.conn top).rtt ≤ (s.conn sel).rtt - kMinImprovement
    · rw [if_pos himproves] at hselected
      simp [hfront hselected, himproves]
    · rw [if_neg himproves] at hselected
      rw [selectedWritable_congr h.writeState hselected]
      simp [himproves]

end Switch
end IceTransport

namespace SortCall
open IceTransport

/-- What a call is for: when a connection is writable, no deleted connection is looked at
and the selected connection is writable afterwards. -/
def FailsOver (call : SortCall) : Prop :=
  call.after.AnyWritable → call.before.RemembersLive ∧ call.after.selectedWritable = true

theorem failsOver_iff {env : Environment} {call : SortCall} (h : Sorts env call.before call.after) :
    call.FailsOver ↔ call.before.CanFailOver env := by
  unfold FailsOver CanFailOver
  rw [h.anyWritable_iff]
  apply imp_congr_right
  intro hany
  rw [h.selectedWritable_iff hany]

end SortCall

namespace Recorded
open IceTransport

/-- Every recorded call did what a call does. -/
def CallsSort (env : Environment) (x : Recorded) : Prop :=
  ∀ call ∈ x.calls, Sorts env call.before call.after

theorem rule_callsSort (env : Environment) : Rule env (CallsSort env) (CallsSort env) := by
  have hsort : ∀ (x : Recorded) now, CallsSort env x → CallsSort env (x.sort env now) := by
    intro x now hx call hcall
    rcases List.mem_cons.mp hcall with rfl | hcall
    · exact sorts env x.transport now
    · exact hx call hcall
  refine ⟨fun x hx => hx, hsort, fun x t _ hx => hx, fun x t _ hx => hx,
    fun x port addr remoteUfrag remotePriority hx => hx, fun x c now hx => ?_⟩
  unfold destroy onConnectionDestroyed
  dsimp only
  split
  · exact hsort _ now hx
  · exact hx

end Recorded

namespace IceTransport

section Pair
variable (env : Environment) (s : IceTransport) (a b : ℕ) (now : ℤ)

/-- `_sort_connections_and_update_state` where there are two connections, without the
general sort. -/
def sortPair : IceTransport :=
  let s := { s with connections := if s.sortsBefore env b a then [b, a] else [a, b] }
  let s := s.maybeSwitchSelectedConnection s.connectionToSwitchTo
  s.updateState.maybeStartPinging now

variable {s a b}

theorem sortConnectionsAndUpdateState_pair (h : s.connections = [a, b]) :
    s.sortConnectionsAndUpdateState env now = s.sortPair env a b now := by
  have hsort : s.sortConnections env =
      { s with connections := if s.sortsBefore env b a then [b, a] else [a, b] } := by
    rw [← sortConnections_pair env s h]
    rfl
  unfold sortConnectionsAndUpdateState sortPair
  rw [hsort]

end Pair

theorem step_response {env : Environment} {s : IceTransport} {c port : ℕ} {addr : SocketAddress}
    {data : Bytes} {msg : StunMessage} (now : ℤ)
    (hc : s.addresses.lookup (port, addr) = some c) (halive : s.memory.Alive c)
    (hmsg : Stun.onReadPacket env.hmac env.beyond env.iceParams (s.conn c).remote data =
      .checkResponse msg) :
    s.step env (.packet port addr data now) = s.checkResponse env c msg now := by
  simp [IceTransport.step, IceTransport.onReadPacket, hc, halive, hmsg]

def pingId (n : UInt8) : Bytes := List.replicate 12 n

/-- The peer's response to a ping. -/
def pingResponse (id digest fingerprint : Bytes) : Bytes :=
  [1, 1, 0, 32, 33, 18, 164, 66] ++ id ++ [0, 8, 0, 20] ++ digest ++ [128, 40, 0, 4] ++ fingerprint

def pingMessage (id digest fingerprint : Bytes) : StunMessage where
  type := stunBindingResponse
  length := 32
  transactionId := id
  attrs := [⟨stunAttrMessageIntegrity, 20, .byteString digest⟩]
  buffer := pingResponse id digest fingerprint

def firstDigest : Bytes :=
  [15, 236, 128, 14, 22, 116, 155, 157, 245, 111, 238, 45, 182, 186, 22, 108, 16, 101, 15, 66]

def secondDigest : Bytes :=
  [253, 247, 3, 73, 255, 69, 113, 89, 239, 132, 242, 112, 7, 226, 3, 240, 146, 0, 141, 38]

def firstResponse : Bytes := pingResponse (pingId 1) firstDigest [115, 239, 149, 60]

def secondResponse : Bytes := pingResponse (pingId 7) secondDigest [249, 50, 248, 213]

/-- HMAC-SHA1 at the inputs that the packets need. -/
def failoverEnvironment : Environment :=
  { peerEnvironment with
    hmac := fun password data =>
      if password = conflictPeer.icePwd ∧ data = prefixEndingAt firstResponse 20 then firstDigest
      else if password = conflictPeer.icePwd ∧ data = prefixEndingAt secondResponse 20 then secondDigest
      else peerEnvironment.hmac password data }

theorem computeCrc32_pingResponse (data : Bytes) (hlen : data.length = 52)
    {c₁ c₂ c₃ c₄ : UInt32} (h₁ : (data.take 11).foldl crc32Step 0xFFFFFFFF = c₁)
    (h₂ : ((data.drop 11).take 11).foldl crc32Step c₁ = c₂)
    (h₃ : ((data.drop 22).take 11).foldl crc32Step c₂ = c₃)
    (h₄ : ((data.drop 33).take 11).foldl crc32Step c₃ = c₄) :
    computeCrc32 (data.take (data.length - 8)) = c₄ ^^^ 0xFFFFFFFF := by
  have hparts : data.take (data.length - 8) = data.take 11 ++ (data.drop 11).take 11 ++
      (data.drop 22).take 11 ++ (data.drop 33).take 11 := by
    rw [hlen, ← List.take_add, ← List.take_add, ← List.take_add]
  rw [hparts]
  exact computeCrc32_four h₁ h₂ h₃ h₄

theorem onReadPacket_firstResponse : Stun.onReadPacket failoverEnvironment.hmac
    failoverEnvironment.beyond failoverEnvironment.iceParams conflictPeer firstResponse =
      .checkResponse (pingMessage (pingId 1) firstDigest [115, 239, 149, 60]) := by
  have hcrc := computeCrc32_pingResponse firstResponse rfl
    (show _ = 0xbff2cb03 by decide +kernel) (show _ = 0xbc1868a2 by decide +kernel)
    (show _ = 0x997cc15f by decide +kernel) (show _ = 0xdf443f8d by decide +kernel)
  have hfingerprint : validateFingerprint firstResponse = true := by
    simp only [validateFingerprint, hcrc]
    decide
  exact onReadPacket_checkResponse.mpr
    ⟨hfingerprint, by decide, Or.inl rfl, rfl⟩

theorem onReadPacket_secondResponse : Stun.onReadPacket failoverEnvironment.hmac
    failoverEnvironment.beyond failoverEnvironment.iceParams conflictPeer secondResponse =
      .checkResponse (pingMessage (pingId 7) secondDigest [249, 50, 248, 213]) := by
  have hcrc := computeCrc32_pingResponse secondResponse rfl
    (show _ = 0x0446b502 by decide +kernel) (show _ = 0x40f393c9 by decide +kernel)
    (show _ = 0xbb223188 by decide +kernel) (show _ = 0x55995264 by decide +kernel)
  have hfingerprint : validateFingerprint secondResponse = true := by
    simp only [validateFingerprint, hcrc]
    decide
  exact onReadPacket_checkResponse.mpr
    ⟨hfingerprint, by decide, Or.inl rfl, rfl⟩

def otherAddress : SocketAddress := ⟨[192, 0, 2, 8], 50000⟩

/-- The first connection becomes writable, and then five pings on it stay without a response. -/
def silenceEvents : List Event :=
  [.setRemoteIceParams conflictPeer 1000, .packet 0 peerAddress peerRequest 1001,
    .timer 1050 (pingId 1), .packet 0 peerAddress firstResponse 1060,
    .timer 1200 (pingId 2), .timer 1300 (pingId 3), .timer 2300 (pingId 4),
    .timer 3300 (pingId 5), .timer 4300 (pingId 6)]

/-- The second connection becomes writable. -/
def recoveryEvents : List Event :=
  [.packet 0 otherAddress peerRequest 4310, .timer 4350 (pingId 7),
    .packet 0 otherAddress secondResponse 4355]

def offeredTransport : IceTransport :=
  ({} : IceTransport).setRemoteIceParams failoverEnvironment conflictPeer 1000

/-- After the first ping on the first connection. -/
def askedTransport : IceTransport :=
  (offeredTransport.onUnknownAddress failoverEnvironment 0 peerAddress peerMessage
    [119, 120, 121, 122] 1001).step failoverEnvironment (.timer 1050 (pingId 1))

/-- After the last ping on it. -/
def silentTransport : IceTransport :=
  Runs.run (IceTransport.step failoverEnvironment)
    (askedTransport.checkResponse failoverEnvironment 0
      (pingMessage (pingId 1) firstDigest [115, 239, 149, 60]) 1060)
    [.timer 1200 (pingId 2), .timer 1300 (pingId 3), .timer 2300 (pingId 4),
      .timer 3300 (pingId 5), .timer 4300 (pingId 6)]

/-- After the ping on the second connection. -/
def secondAskedTransport : IceTransport :=
  ((silentTransport.addConnection failoverEnvironment 0 otherAddress [119, 120, 121, 122]
    1853824767).sortPair failoverEnvironment 0 1 4310).step
      failoverEnvironment (.timer 4350 (pingId 7))

/-- The response to it makes the second connection receiving. -/
def secondReceivingTransport : IceTransport :=
  ((secondAskedTransport.modifyConn 1 fun k => k.recordPingResponse 5 4355).modifyConn 1
    fun k => { k with receiving := true }).sortPair failoverEnvironment 0 1 4355

/-- It makes the second connection writable, too. -/
def twoWritableTransport : IceTransport :=
  (((secondReceivingTransport.modifyConn 1 fun k => { k with writeState := .writable }).sortPair
    failoverEnvironment 0 1 4355).modifyConn 1 fun k => { k with state := .succeeded }).setRequests 1
      ((secondAskedTransport.conn 1).requests.checkResponse
        (pingMessage (pingId 7) secondDigest [249, 50, 248, 213])).1

theorem getStunMessage_peerRequest_failover : getStunMessage failoverEnvironment.hmac
    failoverEnvironment.beyond failoverEnvironment.iceParams peerRequest =
      .message peerMessage [119, 120, 121, 122] :=
  (getStunMessage_request rfl).mpr
    ⟨fingerprint_peerRequest, by decide, rfl, rfl⟩

/-- The peer's request creates the first connection. -/
theorem step_offered :
    offeredTransport.step failoverEnvironment (.packet 0 peerAddress peerRequest 1001) =
      offeredTransport.onUnknownAddress failoverEnvironment 0 peerAddress peerMessage
        [119, 120, 121, 122] 1001 :=
  step_unknownAddress 1001 (by with_unfolding_all rfl) getStunMessage_peerRequest_failover rfl

/-- The first ping on the connection of the first request. -/
def askedEvents : List Event :=
  [.setRemoteIceParams conflictPeer 1000, .packet 0 peerAddress peerRequest 1001, .timer 1050 (pingId 1)]

theorem run_asked :
    Runs.run (IceTransport.step failoverEnvironment) {} askedEvents = askedTransport := by
  have hfirst : ({} : IceTransport).step failoverEnvironment (.setRemoteIceParams conflictPeer 1000) =
      offeredTransport := rfl
  rw [askedEvents, Runs.run_cons, Runs.run_cons, Runs.run_cons, Runs.run_nil, hfirst, step_offered,
    askedTransport]

theorem remote_asked : (askedTransport.conn 0).remote = conflictPeer := by with_unfolding_all rfl

/-- The response to the first ping. -/
theorem step_asked :
    askedTransport.step failoverEnvironment (.packet 0 peerAddress firstResponse 1060) =
      askedTransport.checkResponse failoverEnvironment 0
        (pingMessage (pingId 1) firstDigest [115, 239, 149, 60]) 1060 :=
  step_response 1060 (by with_unfolding_all rfl) (by with_unfolding_all decide) (remote_asked ▸ onReadPacket_firstResponse)

theorem run_silence :
    Runs.run (IceTransport.step failoverEnvironment) {} silenceEvents = silentTransport := by
  show Runs.run _ (((offeredTransport.step failoverEnvironment _).step failoverEnvironment _).step
    failoverEnvironment _) _ = _
  rw [step_offered]
  show Runs.run _ (askedTransport.step failoverEnvironment _) _ = _
  rw [step_asked]
  rfl

theorem checkResponse_secondAsked : secondAskedTransport.checkResponse failoverEnvironment 1
    (pingMessage (pingId 7) secondDigest [249, 50, 248, 213]) 4355 = twoWritableTransport := by
  have hreceiving : (secondAskedTransport.modifyConn 1 fun k => k.recordPingResponse 5 4355).updateReceiving
      failoverEnvironment 1 4355 = secondReceivingTransport := by
    have hnew : ((secondAskedTransport.modifyConn 1 fun k =>
        k.recordPingResponse 5 4355).conn 1).receivingAt 4355 = true := by decide +kernel
    have hold : ((secondAskedTransport.modifyConn 1 fun k =>
        k.recordPingResponse 5 4355).conn 1).receiving = false := by decide +kernel
    unfold updateReceiving
    rw [hnew, hold]
    exact sortConnectionsAndUpdateState_pair _ _ (by decide +kernel)
  have hwritable : secondReceivingTransport.setWriteState failoverEnvironment 1 .writable 4355 =
      (secondReceivingTransport.modifyConn 1 fun k => { k with writeState := .writable }).sortPair
        failoverEnvironment 0 1 4355 := by
    have hold : (secondReceivingTransport.conn 1).writeState ≠ .writable := by decide +kernel
    unfold setWriteState
    rw [if_pos hold]
    exact sortConnectionsAndUpdateState_pair _ _ (by decide +kernel)
  have hping : ((secondAskedTransport.conn 1).requests.checkResponse
      (pingMessage (pingId 7) secondDigest [249, 50, 248, 213])).2 =
        .requestResponse { id := pingId 7, type := stunBindingRequest, ts := 4350 } := by
    decide +kernel
  have hrtt : toInt (4355 - 4350) = 5 := rfl
  unfold checkResponse receivedPingResponse twoWritableTransport
  dsimp only
  rw [hping]
  dsimp only
  rw [hrtt, hreceiving, hwritable]

theorem run_recovery :
    Runs.run (IceTransport.step failoverEnvironment) silentTransport recoveryEvents =
      twoWritableTransport := by
  have hrequest : silentTransport.step failoverEnvironment (.packet 0 otherAddress peerRequest 4310) =
      silentTransport.onUnknownAddress failoverEnvironment 0 otherAddress peerMessage
        [119, 120, 121, 122] 4310 :=
    step_unknownAddress 4310 (by decide +kernel) getStunMessage_peerRequest_failover rfl
  have hadd : silentTransport.onUnknownAddress failoverEnvironment 0 otherAddress peerMessage
        [119, 120, 121, 122] 4310 =
      (silentTransport.addConnection failoverEnvironment 0 otherAddress [119, 120, 121, 122]
        1853824767).sortPair failoverEnvironment 0 1 4310 := by
    have hpriority : peerMessage.getUInt32 stunAttrPriority = some 1853824767 := rfl
    unfold onUnknownAddress
    rw [hpriority]
    exact sortConnectionsAndUpdateState_pair _ _ (by decide +kernel)
  have hasked : ((silentTransport.addConnection failoverEnvironment 0 otherAddress [119, 120, 121, 122]
      1853824767).sortPair failoverEnvironment 0 1 4310).step failoverEnvironment
        (.timer 4350 (pingId 7)) = secondAskedTransport := rfl
  have hremote : (secondAskedTransport.conn 1).remote = conflictPeer := by decide +kernel
  have hresponse : secondAskedTransport.step failoverEnvironment
        (.packet 0 otherAddress secondResponse 4355) =
      secondAskedTransport.checkResponse failoverEnvironment 1
        (pingMessage (pingId 7) secondDigest [249, 50, 248, 213]) 4355 :=
    step_response 4355 (by decide +kernel) (by decide +kernel) (hremote ▸ onReadPacket_secondResponse)
  unfold recoveryEvents
  rw [Runs.run_cons, hrequest, hadd, Runs.run_cons, hasked, Runs.run_cons, hresponse,
    checkResponse_secondAsked, Runs.run_nil]

/-- The second connection has been looked at in the next timer callback. -/
def checkedTransport : IceTransport :=
  twoWritableTransport.updateConnection failoverEnvironment 1 6300

/-- The first connection is found to be unreliable. -/
def unreliableTransport : IceTransport :=
  checkedTransport.modifyConn 0 fun k => { k with writeState := .writeUnreliable }

/-- The second connection stays writable, but the first one stays selected. -/
theorem unreliable_selected :
    (unreliableTransport.sortConnectionsAndUpdateState failoverEnvironment 6300).AnyWritable ∧
      (unreliableTransport.sortConnectionsAndUpdateState failoverEnvironment
        6300).selectedWritable = false := by
  have hpair : unreliableTransport.connections = [1, 0] := by decide +kernel
  rw [sortConnectionsAndUpdateState_pair _ _ hpair]
  exact ⟨⟨1, by decide +kernel, by decide +kernel⟩, by decide +kernel⟩

end IceTransport

namespace Recorded
open IceTransport

/-- A recorded call stays recorded. -/
theorem rule_mem (env : Environment) (call : SortCall) :
    Rule env (fun x => call ∈ x.calls) fun x => call ∈ x.calls := by
  refine ⟨fun x hx => hx, fun x now hx => List.mem_cons_of_mem _ hx, fun x t _ hx => hx,
    fun x t _ hx => hx, fun x port addr remoteUfrag remotePriority hx => hx, fun x c now hx => ?_⟩
  unfold destroy onConnectionDestroyed
  dsimp only
  split
  · exact List.mem_cons_of_mem _ hx
  · exact hx

/-- The call that is made when a writable connection is found to be unreliable. -/
theorem mem_calls_updateConnection {env : Environment} {x : Recorded} {c : ℕ} (now : ℤ)
    (hwritable : (x.transport.conn c).writable = true)
    (hfails : (x.transport.conn c).tooManyPingFails connectionWriteConnectFails
      (max minRtt (min maxRtt (2 * (x.transport.conn c).rtt))) now = true)
    (hlong : (x.transport.conn c).tooLongWithoutResponse connectionWriteConnectTimeout now = true) :
    let before := x.transport.modifyConn c fun k => { k with writeState := .writeUnreliable }
    ⟨before, before.sortConnectionsAndUpdateState env now⟩ ∈ (x.updateConnection env c now).calls := by
  intro before
  have hrule := rule_mem env ⟨before, before.sortConnectionsAndUpdateState env now⟩
  have hstate : (x.transport.conn c).writeState ≠ .writeUnreliable := by
    intro hstate
    simp [IceConnection.writable, hstate] at hwritable
  have hcall : ⟨before, before.sortConnectionsAndUpdateState env now⟩ ∈
      (x.setWriteState env c now .writeUnreliable).calls := by
    unfold setWriteState
    rw [if_pos hstate]
    exact List.mem_cons_self
  unfold updateConnection
  simp only [hwritable, hfails, hlong, Bool.and_self, if_true]
  apply hrule.updateReceiving
  split
  · exact hrule.setWriteState hcall .writeTimeout
  · exact hcall

theorem calls_timer_pair {env : Environment} {x : Recorded} {a b : ℕ} (now : ℤ) (id : Bytes)
    (hstarted : x.transport.startPinging = true) (h : x.transport.connections = [a, b]) :
    (x.step env (.timer now id)).calls =
      ((x.updateConnection env a now).updateConnection env b now).calls := by
  unfold Recorded.step onCheckAndPing
  simp only [hstarted, h, if_true, List.foldl_cons, List.foldl_nil, change]

/-- The call in the callback at 6300. -/
def failoverCall : SortCall where
  before := unreliableTransport
  after := unreliableTransport.sortConnectionsAndUpdateState failoverEnvironment 6300

theorem mem_failoverCall : failoverCall ∈ (Runs.run (Recorded.step failoverEnvironment) {}
    (silenceEvents ++ recoveryEvents ++ [.timer 6300 (pingId 8)])).calls := by
  have htransport : (Runs.run (Recorded.step failoverEnvironment) {}
      (silenceEvents ++ recoveryEvents)).transport = twoWritableTransport := by
    rw [transport_run, Runs.run_append]
    exact (congrArg (Runs.run _ · recoveryEvents) run_silence).trans run_recovery
  rw [Runs.run_append]
  generalize Runs.run (Recorded.step failoverEnvironment) {} (silenceEvents ++ recoveryEvents) = x
    at htransport ⊢
  have hchecked : (x.updateConnection failoverEnvironment 1 6300).transport = checkedTransport := by
    rw [transport_updateConnection, htransport]
    rfl
  have hstarted : x.transport.startPinging = true := by
    rw [htransport]
    decide +kernel
  have hpair : x.transport.connections = [1, 0] := by
    rw [htransport]
    decide +kernel
  rw [Runs.run_cons, Runs.run_nil, calls_timer_pair 6300 (pingId 8) hstarted hpair, failoverCall,
    unreliableTransport, ← hchecked]
  apply mem_calls_updateConnection 6300
  · rw [hchecked]
    decide +kernel
  · rw [hchecked]
    decide +kernel
  · rw [hchecked]
    decide +kernel

/-- Along every run, a call of `_sort_connections_and_update_state` leaves a writable
connection selected, as long as there is one, exactly if it can fail over. -/
theorem failsOver_iff_canFailOver (env : Environment) (es : List Event) {call : SortCall}
    (h : call ∈ (Runs.run (Recorded.step env) {} es).calls) :
    call.FailsOver ↔ call.before.CanFailOver env := by
  have hempty : CallsSort env {} := by
    intro call hcall
    exact absurd hcall List.not_mem_nil
  exact SortCall.failsOver_iff ((rule_callsSort env).run hempty es call h)

/-- The selected connection fails, and another one with a similar round-trip time works. -/
theorem failover_sticks :
    ∃ call ∈ (Runs.run (Recorded.step failoverEnvironment) {}
        (silenceEvents ++ recoveryEvents ++ [.timer 6300 (pingId 8)])).calls,
      call.after.AnyWritable ∧ call.after.selectedWritable = false :=
  ⟨failoverCall, mem_failoverCall, unreliable_selected⟩

theorem not_canFailOver_unreliable : ¬unreliableTransport.CanFailOver failoverEnvironment := by
  intro hcan
  have hfails : failoverCall.FailsOver :=
    (failsOver_iff_canFailOver failoverEnvironment _ mem_failoverCall).mpr hcan
  have hwritable := (hfails unreliable_selected.1).2
  rw [show failoverCall.after.selectedWritable = false from unreliable_selected.2] at hwritable
  exact Bool.false_ne_true hwritable

end Recorded
end Ice
end XrtcServer
