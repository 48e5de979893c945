import XrtcServer.IceTransport

/-! Which pointers to connections the ICE transport holds, what its methods do to
them, and exactly which runs leave none of them dangling. -/
namespace XrtcServer
namespace Ice
open ByteFormat ObjectHeap Stun

namespace IceTransport

/-- The controller or the channel holds a pointer to the connection. -/
def Held (s : IceTransport) (c : ℕ) : Prop :=
  c ∈ s.connections ∨ c ∈ s.unpinged ∨ c ∈ s.pinged ∨
    s.controllerSelected = some c ∨ s.selected = some c

/-- Every pointer leads to a connection that is not destroyed, and the two selected
connections are the same. -/
structure NoDangling (s : IceTransport) : Prop where
  addresses : ∀ key c, s.addresses.lookup key = some c → s.memory.Alive c
  connections : ∀ c ∈ s.connections, s.memory.Alive c
  unpinged : ∀ c ∈ s.unpinged, s.memory.Alive c
  pinged : ∀ c ∈ s.pinged, s.memory.Alive c
  controllerSelected : ∀ c, s.controllerSelected = some c → s.memory.Alive c
  selected : ∀ c, s.selected = some c → s.memory.Alive c
  agree : s.controllerSelected = s.selected

theorem NoDangling.held {s : IceTransport} (h : s.NoDangling) {c : ℕ} (hc : s.Held c) :
    s.memory.Alive c := by
  rcases hc with hc | hc | hc | hc | hc
  · exact h.connections c hc
  · exact h.unpinged c hc
  · exact h.pinged c hc
  · exact h.controllerSelected c hc
  · exact h.selected c hc

/-- What a method keeps that neither creates nor destroys a connection: it takes no new
pointer, it keeps the two selected connections together, and the requests of the
connections stay under their ids. -/
structure Frame (s t : IceTransport) : Prop where
  size : t.memory.size = s.memory.size
  freed : t.memory.freed = s.memory.freed
  addresses : t.addresses = s.addresses
  connections : ∀ c, c ∈ t.connections ↔ c ∈ s.connections
  held : ∀ c, t.Held c → s.Held c
  agree : s.controllerSelected = s.selected → t.controllerSelected = t.selected
  keyed : (∀ c, (s.conn c).requests.Keyed) → ∀ c, (t.conn c).requests.Keyed

namespace Frame

theorem refl (s : IceTransport) : Frame s s :=
  ⟨rfl, rfl, rfl, fun _ => Iff.rfl, fun _ h => h, id, id⟩

theorem trans {s t u : IceTransport} (h : Frame s t) (h' : Frame t u) : Frame s u where
  size := h'.size.trans h.size
  freed := h'.freed.trans h.freed
  addresses := h'.addresses.trans h.addresses
  connections c := (h'.connections c).trans (h.connections c)
  held c hc := h.held c (h'.held c hc)
  agree ha := h'.agree (h.agree ha)
  keyed hk := h'.keyed (h.keyed hk)

theorem foldl {f : IceTransport → ℕ → IceTransport} (hf : ∀ s c, Frame s (f s c))
    (cs : List ℕ) (s : IceTransport) : Frame s (cs.foldl f s) := by
  induction cs generalizing s with
  | nil => exact refl s
  | cons c cs ih => exact (hf s c).trans (ih (f s c))

theorem alive {s t : IceTransport} (h : Frame s t) (c : ℕ) :
    t.memory.Alive c ↔ s.memory.Alive c := by
  rw [Heap.Alive, Heap.Alive, h.size, h.freed]

end Frame

theorem conn_of_size_le (s : IceTransport) {c : ℕ} (hc : s.memory.size ≤ c) :
    s.conn c = blankConnection := by
  rw [conn, (s.memory.get?_eq_none c).mpr hc, Option.getD_none]

theorem conn_modifyConn (s : IceTransport) (c c' : ℕ) (f : IceConnection → IceConnection) :
    (s.modifyConn c f).conn c' =
      if c = c' ∧ c' < s.memory.size then f (s.conn c') else s.conn c' := by
  simp only [conn, modifyConn, Heap.get?_modify]
  by_cases hc : c = c'
  · subst hc
    by_cases hlt : c < s.memory.size
    · obtain ⟨k, hk⟩ := Option.isSome_iff_exists.mp ((s.memory.get?_isSome c).mpr hlt)
      simp [hk, hlt]
    · have hnone : s.memory.get? c = none := (s.memory.get?_eq_none c).mpr (by omega)
      simp [hnone, hlt]
  · simp [hc]

section Frames
variable (env : Environment) (s : IceTransport) (c : ℕ) (now : ℤ)

theorem frame_modifyConn {f : IceConnection → IceConnection}
    (hf : ∀ k : IceConnection, k.requests.Keyed → (f k).requests.Keyed) :
    Frame s (s.modifyConn c f) where
  size := Heap.size_modify _ _ _
  freed := rfl
  addresses := rfl
  connections _ := Iff.rfl
  held _ h := h
  agree := id
  keyed hk c' := by
    rw [conn_modifyConn]
    split
    · exact hf _ (hk c')
    · exact hk c'

theorem frame_setWritable (b : Bool) : Frame s (s.setWritable b) := by
  unfold setWritable
  split
  · exact Frame.refl s
  · exact ⟨rfl, rfl, rfl, fun _ => Iff.rfl, fun _ h => h, id, id⟩

theorem frame_setReceiving (b : Bool) : Frame s (s.setReceiving b) :=
  ⟨rfl, rfl, rfl, fun _ => Iff.rfl, fun _ h => h, id, id⟩

theorem frame_setState (state : IceTransportState) : Frame s (s.setState state) := by
  unfold setState
  split
  · exact ⟨rfl, rfl, rfl, fun _ => Iff.rfl, fun _ h => h, id, id⟩
  · exact Frame.refl s

theorem frame_updateState : Frame s s.updateState :=
  (frame_setWritable s _).trans ((frame_setReceiving _ _).trans (frame_setState _ _))

theorem frame_maybeStartPinging : Frame s (s.maybeStartPinging now) := by
  unfold maybeStartPinging
  split_ifs
  · exact Frame.refl s
  · exact ⟨rfl, rfl, rfl, fun _ => Iff.rfl, fun _ h => h, id, id⟩
  · exact Frame.refl s

theorem frame_sortConnections : Frame s (s.sortConnections env) where
  size := rfl
  freed := rfl
  addresses := rfl
  connections _ := List.mem_mergeSort
  held c h := by
    rcases h with h | h
    · exact Or.inl (List.mem_mergeSort.mp h)
    · exact Or.inr h
  agree := id
  keyed := id

/-- Switching to a known connection selects it in both places. -/
theorem frame_switch {c : ℕ} (hc : c ∈ s.connections) :
    Frame s (s.switchSelectedConnection (some c)) := by
  have hold : ∀ t : IceTransport, Frame s t →
      Frame s { t.modifyConn c (fun k => { k with selected := true }) with
        controllerSelected := some c, selected := some c } := by
    intro t ht
    have hm : Frame s (t.modifyConn c fun k => { k with selected := true }) :=
      ht.trans (frame_modifyConn t c fun _ hk => hk)
    refine ⟨hm.size, hm.freed, hm.addresses, hm.connections, fun c' h => ?_, fun _ => rfl, hm.keyed⟩
    rcases h with h | h | h | h | h
    · exact hm.held c' (Or.inl h)
    · exact hm.held c' (Or.inr (Or.inl h))
    · exact hm.held c' (Or.inr (Or.inr (Or.inl h)))
    · exact Or.inl (Option.some.inj h ▸ hc)
    · exact Or.inl (Option.some.inj h ▸ hc)
  unfold switchSelectedConnection
  cases s.selected with
  | none => exact hold s (Frame.refl s)
  | some o =>
    exact hold (s.modifyConn o fun k => { k with selected := false })
      (frame_modifyConn s o fun _ hk => hk)

theorem mem_of_connectionToSwitchTo {s : IceTransport} {c : ℕ}
    (h : s.connectionToSwitchTo = some c) : c ∈ s.connections := by
  have hhead : s.connections.head? = some c := by
    simp only [connectionToSwitchTo] at h
    grind
  exact List.mem_of_mem_head? hhead

theorem frame_sortConnectionsAndUpdateState :
    Frame s (s.sortConnectionsAndUpdateState env now) := by
  have hsort := frame_sortConnections env s
  have hswitch : Frame (s.sortConnections env)
      ((s.sortConnections env).maybeSwitchSelectedConnection
        (s.sortConnections env).connectionToSwitchTo) := by
    cases hc : (s.sortConnections env).connectionToSwitchTo with
    | none => exact Frame.refl _
    | some c => exact frame_switch _ (mem_of_connectionToSwitchTo hc)
  exact hsort.trans (hswitch.trans ((frame_updateState _).trans (frame_maybeStartPinging _ now)))

theorem frame_setWriteState (state : WriteState) : Frame s (s.setWriteState env c state now) := by
  have hm : Frame s (s.modifyConn c fun k => { k with writeState := state }) :=
    frame_modifyConn s c fun _ hk => hk
  unfold setWriteState
  dsimp only
  split
  · exact hm.trans (frame_sortConnectionsAndUpdateState env _ now)
  · exact hm

theorem frame_updateReceiving : Frame s (s.updateReceiving env c now) := by
  unfold updateReceiving
  dsimp only
  split
  · exact Frame.refl s
  · have hm : Frame s (s.modifyConn c fun k => { k with receiving := (s.conn c).receivingAt now }) :=
      frame_modifyConn s c fun _ hk => hk
    exact hm.trans (frame_sortConnectionsAndUpdateState env _ now)

theorem frame_updateConnection : Frame s (s.updateConnection env c now) := by
  have hif : ∀ (t : IceTransport) (b : Bool) (state : WriteState),
      Frame t (if b then t.setWriteState env c state now else t) := by
    intro t b state
    cases b
    · exact Frame.refl t
    · exact frame_setWriteState env t c now state
  exact (hif s _ _).trans ((hif _ _ _).trans (frame_updateReceiving env _ c now))

theorem frame_receivedPingResponse (rtt : ℤ) :
    Frame s (s.receivedPingResponse env c rtt now) :=
  (frame_modifyConn s c (f := fun k => k.recordPingResponse rtt now) fun _ hk => hk).trans <|
    (frame_updateReceiving env _ c now).trans <| (frame_setWriteState env _ c now _).trans <|
    frame_modifyConn _ c (f := fun k => { k with state := .succeeded }) fun _ hk => hk

theorem frame_setRequests {requests : StunRequestManager} (h : requests.Keyed) :
    Frame s (s.setRequests c requests) :=
  frame_modifyConn s c fun _ _ => h

theorem mem_insertPointer {set : List ℕ} {c c' : ℕ} :
    c' ∈ insertPointer env c set ↔ c' = c ∨ c' ∈ set := by
  unfold insertPointer
  split
  · rename_i hc
    exact ⟨Or.inr, fun h => h.elim (fun he => he ▸ hc) id⟩
  · exact List.mem_orderedInsert _

theorem mem_foldl_insertPointer {cs set : List ℕ} {c : ℕ} :
    c ∈ cs.foldl (fun set c => insertPointer env c set) set ↔ c ∈ set ∨ c ∈ cs := by
  induction cs generalizing set with
  | nil => simp
  | cons a cs ih =>
    rw [List.foldl_cons, ih, mem_insertPointer, List.mem_cons]
    tauto

theorem frame_refillUnpinged : Frame s (s.refillUnpinged env now) := by
  unfold refillUnpinged
  split
  · exact Frame.refl s
  · refine ⟨rfl, rfl, rfl, fun _ => Iff.rfl, fun c h => ?_, id, id⟩
    rcases h with h | h | h | h
    · exact Or.inl h
    · rcases (mem_foldl_insertPointer env).mp h with h | h
      · exact Or.inr (Or.inl h)
      · exact Or.inr (Or.inr (Or.inl h))
    · simp at h
    · exact Or.inr (Or.inr (Or.inr h))

theorem mem_of_bestUnpinged {s : IceTransport} {now : ℤ} {c : ℕ}
    (h : s.bestUnpinged now = some c) : c ∈ s.unpinged := by
  have hmem : ∀ (cs : List ℕ) (find : Option ℕ),
      cs.foldl (fun find c => if s.isPingable c now && s.morePingable c find then some c else find)
        find = some c → c ∈ cs ∨ find = some c := by
    intro cs
    induction cs with
    | nil => exact fun find h => Or.inr h
    | cons a cs ih =>
      intro find h
      rcases ih _ h with h | h
      · exact Or.inl (List.mem_cons_of_mem a h)
      · dsimp only at h
        split at h
        · exact Or.inl (Option.some.inj h ▸ List.mem_cons_self)
        · exact Or.inr h
  exact (hmem _ _ h).resolve_right (by simp)

/-- The connection that is to be pinged is one that the controller holds. -/
theorem frame_selectConnectionToPing (last : ℤ) :
    Frame s (s.selectConnectionToPing env last now).1 ∧
    ∀ c, (s.selectConnectionToPing env last now).2.1 = some c →
      (s.selectConnectionToPing env last now).1.Held c := by
  have hrefill : Frame s (s.refillUnpinged env now) ∧
      ∀ c, (s.refillUnpinged env now).bestUnpinged now = some c →
        (s.refillUnpinged env now).Held c :=
    ⟨frame_refillUnpinged env s now, fun c h => Or.inr (Or.inl (mem_of_bestUnpinged h))⟩
  have hfind : Frame s (s.findNextPingableConnection env now).1 ∧
      ∀ c, (s.findNextPingableConnection env now).2 = some c →
        (s.findNextPingableConnection env now).1.Held c := by
    unfold findNextPingableConnection
    split
    · exact hrefill
    · rename_i sel hsel
      split
      · refine ⟨Frame.refl s, fun c h => ?_⟩
        exact Or.inr (Or.inr (Or.inr (Or.inl (hsel.trans h))))
      · exact hrefill
  unfold selectConnectionToPing
  by_cases htime : now ≥ last +
      (if s.weak || s.connections.any fun c => (s.conn c).numPingsSent < minPingsAtWeakPingInterval
        then weakPingInterval else strongPingInterval)
  · simp only [htime, if_true]
    exact hfind
  · simp only [htime, if_false]
    exact ⟨Frame.refl s, fun c h => by cases h⟩

theorem frame_pingConnection {c : ℕ} (hc : s.Held c) (id : Bytes) :
    Frame s (s.pingConnection env c now id) := by
  have htime : Frame s { s with lastPingSentMs := now } :=
    ⟨rfl, rfl, rfl, fun _ => Iff.rfl, fun _ h => h, fun h => h, fun h => h⟩
  have hping : Frame s
      (({ s with lastPingSentMs := now } : IceTransport).modifyConn c fun k => k.ping now id) :=
    htime.trans (frame_modifyConn _ c fun k hk => hk.send rfl)
  have hmark : ∀ t : IceTransport, Frame s t → Frame s (t.markConnectionPinged env c) := by
    intro t ht
    unfold markConnectionPinged
    split
    · exact ht
    · refine ⟨ht.size, ht.freed, ht.addresses, ht.connections, fun c' h => ?_, ht.agree, ht.keyed⟩
      rcases h with h | h | h | h
      · exact ht.held c' (Or.inl h)
      · exact ht.held c' (Or.inr (Or.inl (List.mem_of_mem_erase h)))
      · rcases (mem_insertPointer env).mp h with rfl | h
        · exact hc
        · exact ht.held c' (Or.inr (Or.inr (Or.inl h)))
      · exact ht.held c' (Or.inr (Or.inr (Or.inr h)))
  exact hmark _ hping

theorem frame_onCheckAndPing (id : Bytes) : Frame s (s.onCheckAndPing env now id) := by
  have hupdate := Frame.foldl (fun s c => frame_updateConnection env s c now) s.connections s
  unfold onCheckAndPing
  generalize s.connections.foldl (fun s c => s.updateConnection env c now) s = t at hupdate ⊢
  have hselect := frame_selectConnectionToPing env t now (t.lastPingSentMs - pingIntervalDiff)
  dsimp only
  generalize t.selectConnectionToPing env (t.lastPingSentMs - pingIntervalDiff) now = r at hselect ⊢
  obtain ⟨u, c, interval⟩ := r
  have hfinish : ∀ v : IceTransport, Frame s v → Frame s { v with curPingInterval := interval } :=
    fun v h => h.trans ⟨rfl, rfl, rfl, fun _ => Iff.rfl, fun _ h => h, fun h => h, fun h => h⟩
  apply hfinish
  cases c with
  | none => exact hupdate.trans hselect.1
  | some c =>
    exact hupdate.trans (hselect.1.trans (frame_pingConnection env u now (hselect.2 c rfl) id))

theorem frame_setRemoteIceParams (params : IceParameters) :
    Frame s (s.setRemoteIceParams env params now) := by
  have hset : Frame s { s with remoteIceParams := params } :=
    ⟨rfl, rfl, rfl, fun _ => Iff.rfl, fun _ h => h, fun h => h, fun h => h⟩
  have hconn : ∀ (t : IceTransport) (c : ℕ), Frame t (t.modifyConn c fun k =>
      { k with remote := maybeSetRemoteIceParams k.remote params }) :=
    fun t c => frame_modifyConn t c fun _ hk => hk
  have hall := Frame.foldl hconn s.connections { s with remoteIceParams := params }
  exact hset.trans (hall.trans (frame_sortConnectionsAndUpdateState env _ now))

/-- A response whose handler does not destroy the connection. -/
theorem frame_checkResponse {msg : StunMessage} (hk : (s.conn c).requests.Keyed)
    (h : ((s.conn c).requests.checkResponse msg).2 ≠ .failAndDestroy) :
    Frame s (s.checkResponse env c msg now) := by
  have hr := hk.checkResponse msg
  unfold checkResponse
  dsimp only
  generalize (s.conn c).requests.checkResponse msg = result at h hr ⊢
  obtain ⟨m, handler⟩ := result
  cases handler with
  | failAndDestroy => exact absurd rfl h
  | requestResponse request =>
    exact (frame_receivedPingResponse env s c now _).trans (frame_setRequests _ c hr)
  | unmatched => exact frame_setRequests s c hr
  | requestErrorResponse => exact frame_setRequests s c hr
  | wrongType => exact frame_setRequests s c hr

end Frames
/-- No pointer dangles, every connection is in an address map, and the requests of the
connections stand under their ids. -/
structure Sound (s : IceTransport) : Prop extends NoDangling s where
  registered : ∀ c, s.memory.Alive c → ∃ key, s.addresses.lookup key = some c
  keyed : ∀ c, (s.conn c).requests.Keyed
  bounded : ∀ c ∈ s.memory.freed, c < s.memory.size

theorem Sound.frame {s t : IceTransport} (h : s.Sound) (hf : Frame s t) : t.Sound := by
  have hheld : ∀ c, t.Held c → t.memory.Alive c := fun c hc =>
    (hf.alive c).mpr (h.held (hf.held c hc))
  refine ⟨⟨fun key c hc => ?_, fun c hc => ?_, fun c hc => ?_, fun c hc => ?_, fun c hc => ?_,
    fun c hc => ?_, hf.agree h.agree⟩, fun c hc => ?_, hf.keyed h.keyed, fun c hc => ?_⟩
  · rw [hf.addresses] at hc
    exact (hf.alive c).mpr (h.addresses key c hc)
  · exact hheld c (Or.inl hc)
  · exact hheld c (Or.inr (Or.inl hc))
  · exact hheld c (Or.inr (Or.inr (Or.inl hc)))
  · exact hheld c (Or.inr (Or.inr (Or.inr (Or.inl hc))))
  · exact hheld c (Or.inr (Or.inr (Or.inr (Or.inr hc))))
  · rw [hf.addresses]
    exact h.registered c ((hf.alive c).mp hc)
  · rw [hf.freed] at hc
    rw [hf.size]
    exact h.bounded c hc

theorem sound_empty : ({} : IceTransport).Sound := by
  have hnone : ∀ c, ({} : IceTransport).memory.get? c = none := fun c => by simp [Heap.get?]
  refine ⟨⟨fun key c hc => ?_, ?_, ?_, ?_, ?_, ?_, rfl⟩, fun c hc => ?_, fun c => ?_, ?_⟩
  · simp at hc
  · simp
  · simp
  · simp
  · simp
  · simp
  · exact absurd hc.1 (Nat.not_lt_zero c)
  · rw [conn, hnone]
    exact StunRequestManager.keyed_empty
  · simp

/-- A new connection gets an address that no other connection has. -/
theorem Sound.onUnknownAddress {env : Environment} {s : IceTransport} (h : s.Sound) {port : ℕ}
    {addr : SocketAddress} (hfresh : s.addresses.lookup (port, addr) = none) (msg : StunMessage)
    (remoteUfrag : Bytes) (now : ℤ) :
    (s.onUnknownAddress env port addr msg remoteUfrag now).Sound := by
  unfold IceTransport.onUnknownAddress
  cases msg.getUInt32 stunAttrPriority with
  | none => exact h
  | some remotePriority =>
    have hold : ∀ {k : IceConnection} {c : ℕ}, s.memory.Alive c → (s.memory.alloc k).Alive c :=
      fun hc => hc.alloc
    have hnew : ∀ k, (s.memory.alloc k).Alive s.memory.size := fun k =>
      Heap.alive_alloc_new h.bounded
    have hother : ∀ {key : ℕ × SocketAddress} {c : ℕ}, s.addresses.lookup key = some c →
        key ≠ (port, addr) := by
      rintro key c hc rfl
      rw [hfresh] at hc
      cases hc
    refine Sound.frame ?_ (frame_sortConnectionsAndUpdateState env _ now)
    refine ⟨⟨fun key c hc => ?_, fun c hc => ?_, fun c hc => ?_, fun c hc => ?_, fun c hc => ?_,
      fun c hc => ?_, h.agree⟩, fun c hc => ?_, fun c => ?_, fun c hc => ?_⟩
    · by_cases hk : key = (port, addr)
      · subst hk
        obtain rfl : s.memory.size = c := by simpa using hc
        exact hnew _
      · rw [AList.lookup_insert_ne hk] at hc
        exact hold (h.addresses key c hc)
    · rcases List.mem_append.mp hc with hc | hc
      · exact hold (h.connections c hc)
      · rw [List.mem_singleton.mp hc]
        exact hnew _
    · rcases (mem_insertPointer env).mp hc with rfl | hc
      · exact hnew _
      · exact hold (h.unpinged c hc)
    · exact hold (h.pinged c hc)
    · exact hold (h.controllerSelected c hc)
    · exact hold (h.selected c hc)
    · by_cases hn : c = s.memory.size
      · exact ⟨(port, addr), by simp [hn]⟩
      · have hlt : c < s.memory.size := by
          have := hc.1
          rw [Heap.size_alloc] at this
          omega
        obtain ⟨key, hkey⟩ := h.registered c ⟨hlt, hc.2⟩
        exact ⟨key, by rw [AList.lookup_insert_ne (hother hkey)]; exact hkey⟩
    · simp only [conn, Heap.get?_alloc]
      split
      · exact StunRequestManager.keyed_empty
      · exact h.keyed c
    · have := h.bounded c hc
      rw [Heap.size_alloc]
      omega

/-- Destroying a connection leaves the address maps as they are. -/
theorem destroy_addresses (env : Environment) (s : IceTransport) (c : ℕ) (now : ℤ) :
    (s.destroy env c now).addresses = s.addresses ∧ c ∈ (s.destroy env c now).memory.freed := by
  refine ⟨?_, List.mem_cons_self⟩
  show (s.onConnectionDestroyed env c now).addresses = s.addresses
  unfold onConnectionDestroyed
  dsimp only
  split
  · refine (frame_sortConnectionsAndUpdateState env _ now).addresses.trans ?_
    unfold switchSelectedConnection
    cases (s.forgetConnection c).selected <;> rfl
  · exact (frame_updateState _).addresses

/-- An event that destroys no connection: no call of `destroy`, and no accepted error
response to a pending ping. -/
def DestroysNone (env : Environment) (s : IceTransport) (e : Event) : Prop :=
  match e with
  | .packet port addr data _ => ∀ c msg, s.addresses.lookup (port, addr) = some c →
    Stun.onReadPacket env.hmac env.beyond env.iceParams (s.conn c).remote data = .checkResponse msg →
    msg.type = stunBindingErrorResponse → msg.transactionId ∉ (s.conn c).requests.requests
  | .timer _ _ => True
  | .setRemoteIceParams _ _ => True
  | .destroyConnection c _ => ¬s.memory.Alive c

/-- The response destroys the connection when it is an error response to a pending
ping; the reader keeps no error code that would spare it. -/
theorem checkResponse_destroys_iff {env : Environment} {k : IceConnection}
    (hk : k.requests.Keyed) {data : Bytes} {msg : StunMessage}
    (h : Stun.onReadPacket env.hmac env.beyond env.iceParams k.remote data = .checkResponse msg) :
    (k.requests.checkResponse msg).2 = .failAndDestroy ↔
      msg.type = stunBindingErrorResponse ∧ msg.transactionId ∈ k.requests.requests := by
  have hr := (onReadPacket_checkResponse.mp h).2.1
  have hrec : maybeRecovers msg.getErrorCodeValue = false := by
    rw [getErrorCodeValue_of_read hr]
    decide
  unfold StunRequestManager.checkResponse
  cases hi : k.requests.requests.lookup msg.transactionId with
  | none =>
    have hn : msg.transactionId ∉ k.requests.requests := AList.lookup_eq_none.mp hi
    simp [hn]
  | some i =>
    have hin : msg.transactionId ∈ k.requests.requests := AList.lookup_isSome.mp (by simp [hi])
    obtain ⟨request, hreq, -, ht⟩ := hk _ i hi
    simp only [hreq, ht, getStunSuccessResponse_request, getStunErrorResponse_request, hrec,
      Nat.cast_inj, hin, and_true, Bool.false_eq_true, if_false]
    have hne : stunBindingResponse ≠ stunBindingErrorResponse := by decide
    by_cases hs : msg.type = stunBindingResponse
    · simp [hs, hne]
    · by_cases he : msg.type = stunBindingErrorResponse <;> simp [hs, he, Ne.symm hne]

/-- A request from an address without a connection. -/
theorem step_unknownAddress {env : Environment} {s : IceTransport} {port : ℕ}
    {addr : SocketAddress} {data : Bytes} {msg : StunMessage} {remoteUfrag : Bytes} (now : ℤ)
    (hnone : s.addresses.lookup (port, addr) = none)
    (hmsg : getStunMessage env.hmac env.beyond env.iceParams data = .message msg remoteUfrag)
    (ht : msg.type = stunBindingRequest) :
    s.step env (.packet port addr data now) =
      s.onUnknownAddress env port addr msg remoteUfrag now := by
  simp [IceTransport.step, IceTransport.onReadPacket, hnone, hmsg, ht]

/-- An event that destroys nothing keeps the transport sound. -/
theorem Sound.step {env : Environment} {s : IceTransport} (h : s.Sound) {e : Event}
    (hC : DestroysNone env s e) : (s.step env e).Sound := by
  cases e with
  | packet port addr data now =>
    show (s.onReadPacket env port addr data now).Sound
    unfold IceTransport.onReadPacket
    cases hc : s.addresses.lookup (port, addr) with
    | some c =>
      dsimp only
      rw [if_pos (h.addresses _ c hc)]
      split
      · rename_i msg haction
        refine h.frame (frame_checkResponse env s c now (h.keyed c) fun hd => ?_)
        obtain ⟨ht, hin⟩ := (checkResponse_destroys_iff (h.keyed c) haction).mp hd
        exact hC c msg hc haction ht hin
      · exact h
    | none =>
      dsimp only
      split
      · split
        · exact h.onUnknownAddress hc _ _ now
        · exact h
      · exact h
  | timer now id =>
    show (if s.startPinging then s.onCheckAndPing env now id else s).Sound
    split
    · exact h.frame (frame_onCheckAndPing env s now id)
    · exact h
  | setRemoteIceParams params now => exact h.frame (frame_setRemoteIceParams env s now params)
  | destroyConnection c now =>
    show (if s.memory.Alive c then s.destroy env c now else s).Sound
    rw [if_neg hC]
    exact h

/-- An event that destroys a connection leaves its address map entry dangling. -/
theorem Sound.not_noDangling_step {env : Environment} {s : IceTransport} (h : s.Sound) {e : Event}
    (hC : ¬DestroysNone env s e) : ¬(s.step env e).NoDangling := by
  intro hn
  cases e with
  | packet port addr data now =>
    simp only [DestroysNone, not_forall, not_not] at hC
    obtain ⟨c, msg, hc, haction, ht, hin⟩ := hC
    have hd := (checkResponse_destroys_iff (h.keyed c) haction).mpr ⟨ht, hin⟩
    obtain ⟨haddr, hfreed⟩ := destroy_addresses env
      (s.modifyConn c fun k => { k with state := .failed }) c now
    have hstep : s.step env (.packet port addr data now) =
        ((s.modifyConn c fun k => { k with state := .failed }).destroy env c now).setRequests c
          ((s.conn c).requests.checkResponse msg).1 := by
      simp [IceTransport.step, IceTransport.onReadPacket, hc, h.addresses _ c hc, haction,
        IceTransport.checkResponse, hd]
    rw [hstep] at hn
    exact (hn.addresses (port, addr) c (haddr ▸ hc)).2 hfreed
  | timer now id => exact hC trivial
  | setRemoteIceParams params now => exact hC trivial
  | destroyConnection c now =>
    have ha : s.memory.Alive c := not_not.mp hC
    obtain ⟨key, hkey⟩ := h.registered c ha
    obtain ⟨haddr, hfreed⟩ := destroy_addresses env s c now
    rw [show s.step env (.destroyConnection c now) = s.destroy env c now from if_pos ha] at hn
    exact (hn.addresses key c (haddr ▸ hkey)).2 hfreed

/-- Along every run of a new transport, no pointer to a destroyed connection is held and
the two selected connections agree exactly as long as no connection is destroyed. -/
theorem no_dangling_iff (env : Environment) (es : List Event) :
    Runs.AllAfter (IceTransport.step env) NoDangling {} es ↔
      Runs.Along (IceTransport.step env) (DestroysNone env) {} es := by
  have hstep : ∀ s e, s.Sound → DestroysNone env s e → (s.step env e).Sound :=
    fun s e h hC => h.step hC
  refine Runs.along_iff hstep (fun s e h => ⟨fun hn => ?_, fun hC => ?_⟩) sound_empty es
  · by_contra hC
    exact h.not_noDangling_step hC hn
  · exact (hstep s e h hC).toNoDangling

/-- A binding request of the peer, with its PRIORITY in front of the digest. -/
def peerRequest : Bytes :=
  [0, 1, 0, 56, 33, 18, 164, 66, 21, 22, 23, 24, 25, 26, 27, 28, 29, 30, 31, 32,
    0, 6, 0, 9, 97, 98, 99, 100, 58, 119, 120, 121, 122, 0, 0, 0, 0, 36, 0, 4, 110, 127, 30, 255,
    0, 8, 0, 20, 44, 87, 34, 43, 70, 174, 98, 233, 238, 118, 206, 207, 106, 27, 24, 252, 177, 127,
    70, 191, 128, 40, 0, 4, 203, 91, 65, 70]

def peerMessage : StunMessage where
  type := stunBindingRequest
  length := 56
  transactionId := [21, 22, 23, 24, 25, 26, 27, 28, 29, 30, 31, 32]
  attrs := [
    ⟨stunAttrUsername, 9, .byteString [97, 98, 99, 100, 58, 119, 120, 121, 122]⟩,
    ⟨stunAttrPriority, 4, .uint32 1853824767⟩,
    ⟨stunAttrMessageIntegrity, 20, .byteString ((peerRequest.drop 48).take 20)⟩]
  buffer := peerRequest

/-- HMAC-SHA1 at the two inputs that the packets need. -/
def peerEnvironment : Environment where
  hmac password data :=
    if password = lateParameters.icePwd ∧ data = prefixEndingAt peerRequest 44 then
      [44, 87, 34, 43, 70, 174, 98, 233, 238, 118, 206, 207, 106, 27, 24, 252, 177, 127, 70, 191]
    else conflictHmac password data
  beyond := fun _ => 0
  addressOf := id
  localPriority := fun _ => 0
  iceParams := lateParameters

theorem fingerprint_peerRequest : validateFingerprint peerRequest = true := by
  have hcrc : computeCrc32 (peerRequest.take 68) = 0x67f0ebf7 ^^^ 0xFFFFFFFF := by
    have hparts : peerRequest.take 68 = peerRequest.take 17 ++ (peerRequest.drop 17).take 17 ++
        (peerRequest.drop 34).take 17 ++ (peerRequest.drop 51).take 17 := by decide +kernel
    rw [hparts]
    exact computeCrc32_four (show _ = 0x83fe182c by decide +kernel)
      (show _ = 0xbaa5bfae by decide +kernel) (show _ = 0x4bd1880e by decide +kernel)
      (by decide +kernel)
  have hlen : peerRequest.length - 8 = 68 := by decide
  simp only [validateFingerprint, hlen, hcrc]
  decide +kernel

def peerAddress : SocketAddress := ⟨[192, 0, 2, 7], 50000⟩

/-- The transport once the peer is known and has sent its request. -/
def peerTransport : IceTransport :=
  (({} : IceTransport).setRemoteIceParams peerEnvironment conflictPeer 1000).onUnknownAddress
    peerEnvironment 0 peerAddress peerMessage [119, 120, 121, 122] 1001

/-- The same transport after the first ping. -/
def pingedTransport : IceTransport :=
  peerTransport.onCheckAndPing peerEnvironment 1050 [1, 2, 3, 4, 5, 6, 7, 8, 9, 10, 11, 12]

theorem getStunMessage_peerRequest : getStunMessage peerEnvironment.hmac peerEnvironment.beyond
    peerEnvironment.iceParams peerRequest = .message peerMessage [119, 120, 121, 122] :=
  (getStunMessage_request rfl).mpr
    ⟨fingerprint_peerRequest, by decide +kernel, by decide +kernel, by decide +kernel⟩

theorem onReadPacket_roleConflict : Stun.onReadPacket peerEnvironment.hmac peerEnvironment.beyond
    peerEnvironment.iceParams conflictPeer roleConflictResponse = .checkResponse conflictMessage :=
  onReadPacket_checkResponse.mpr
    ⟨fingerprint_roleConflict, by decide +kernel, Or.inr rfl, by decide +kernel⟩

/-- The peer answers the ping with a role conflict. -/
theorem roleConflict_dangles :
    ¬Runs.AllAfter (IceTransport.step peerEnvironment) NoDangling {}
      [.setRemoteIceParams conflictPeer 1000, .packet 0 peerAddress peerRequest 1001,
        .timer 1050 [1, 2, 3, 4, 5, 6, 7, 8, 9, 10, 11, 12],
        .packet 0 peerAddress roleConflictResponse 1060] := by
  rintro ⟨-, -, -, hn, -⟩
  have hnone : (({} : IceTransport).setRemoteIceParams peerEnvironment conflictPeer
      1000).addresses.lookup (0, peerAddress) = none := by
    rw [(frame_setRemoteIceParams peerEnvironment {} 1000 conflictPeer).addresses]
    exact AList.lookup_empty _
  have hset : (({} : IceTransport).setRemoteIceParams peerEnvironment conflictPeer 1000).Sound :=
    sound_empty.frame (frame_setRemoteIceParams peerEnvironment {} 1000 conflictPeer)
  have hpeer : peerTransport.Sound := hset.onUnknownAddress hnone _ _ _
  have hknown : (({} : IceTransport).setRemoteIceParams peerEnvironment conflictPeer 1000).step
      peerEnvironment (.packet 0 peerAddress peerRequest 1001) = peerTransport :=
    step_unknownAddress 1001 hnone getStunMessage_peerRequest rfl
  have hping : peerTransport.step peerEnvironment
      (.timer 1050 [1, 2, 3, 4, 5, 6, 7, 8, 9, 10, 11, 12]) = pingedTransport :=
    if_pos (by decide +kernel)
  have hpinged : pingedTransport.Sound := hpeer.frame (frame_onCheckAndPing _ _ _ _)
  rw [show IceTransport.step peerEnvironment {} (.setRemoteIceParams conflictPeer 1000) =
    ({} : IceTransport).setRemoteIceParams peerEnvironment conflictPeer 1000 from rfl, hknown,
    hping] at hn
  refine hpinged.not_noDangling_step (fun hC => ?_) hn
  have hremote : (pingedTransport.conn 0).remote = conflictPeer := by decide +kernel
  exact hC 0 conflictMessage (by decide +kernel) (hremote ▸ onReadPacket_roleConflict) rfl
    (by decide +kernel)

end IceTransport
end Ice
end XrtcServer
