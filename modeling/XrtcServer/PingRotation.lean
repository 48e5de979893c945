import XrtcServer.IceEffects
import XrtcServer.IceFailover
import Mathlib.Data.Int.ConditionallyCompleteOrder
import Mathlib.Data.List.MinMax

/-! Which connection the controller pings next: the pinged and the unpinged connections, the
choice among the unpinged ones, and that no connection waits for another one twice. -/
namespace XrtcServer
namespace Ice
open ByteFormat ObjectHeap Stun IceTransport

/-- A ping: the transport in which the controller has chosen the connection. -/
structure Choice where
  before : IceTransport
  conn : ℕ
  now : ℤ

/-- A transport with the pings so far, the last one first. -/
structure Pinging where
  transport : IceTransport := {}
  choices : List Choice := []

namespace IceTransport
variable (env : Environment) (s : IceTransport)

/-- The connection that the timer callback pings. -/
def choice (e : Event) : Option Choice :=
  match e with
  | .timer now _ =>
    if s.startPinging then
      let before := s.updateConnectionStates env now
      (before.selectConnectionToPing env (before.lastPingSentMs - pingIntervalDiff) now).2.1.map
        fun c => ⟨before, c, now⟩
    else none
  | _ => none

/-- What the two sets of the controller are. -/
structure Books : Prop where
  disjoint : ∀ c ∈ s.pinged, c ∉ s.unpinged
  union : ∀ c, c ∈ s.connections ↔ c ∈ s.unpinged ∨ c ∈ s.pinged

/-- The selected connection is destroyed only when there is another one to switch to. -/
def KeepsSelected (e : Event) : Prop :=
  ∀ c, Destroys env s e c → s.selected = some c → s.Replaced env c

end IceTransport

namespace Choice
variable (env : Environment) (ch : Choice)

/-- The selected connection is not to be pinged for itself. -/
def Fallback : Prop := ∀ c, ch.before.controllerSelected = some c →
  ¬((ch.before.conn c).writable = true ∧ ch.before.isConnectionPastPingInterval c ch.now = true)

/-- The transport in which the unpinged connections are looked through. -/
def offered : IceTransport := ch.before.refillUnpinged env ch.now

/-- The connection is one of the pingable unpinged ones, and of these no other one was pinged
longer ago. -/
structure Earliest : Prop where
  unpinged : ch.conn ∈ (ch.offered env).unpinged
  pingable : (ch.offered env).isPingable ch.conn ch.now = true
  earliest : ∀ c ∈ (ch.offered env).unpinged, (ch.offered env).isPingable c ch.now = true →
    (ch.before.conn ch.conn).lastPingSent ≤ (ch.before.conn c).lastPingSent

end Choice

namespace Pinging
variable (env : Environment)

def step (x : Pinging) (e : Event) : Pinging where
  transport := x.transport.step env e
  choices := (choice env x.transport e).toList ++ x.choices

/-- The sets are the connections that are and those that are not yet pinged; and when a
connection is chosen among the unpinged ones, it is the earliest, and every other connection
that is pingable then was pinged since the choice was the same before. -/
structure Fair (x : Pinging) : Prop where
  books : x.transport.Books
  earliest : ∀ ch ∈ x.choices, ch.Fallback → ch.Earliest env
  between : ∀ newer later between earlier older,
    x.choices = newer ++ later :: between ++ earlier :: older → later.Fallback →
    later.conn = earlier.conn → ∀ c ∈ later.before.connections, c ≠ later.conn →
      (later.offered env).isPingable c later.now = true → ∃ ch ∈ between, ch.conn = c

end Pinging

namespace IceTransport
variable (env : Environment) (s : IceTransport) (now : ℤ)

/-- The scan takes the first of those that were pinged the longest time ago. -/
theorem bestUnpinged_eq : s.bestUnpinged now =
    (s.unpinged.filter fun c => s.isPingable c now).argmin fun c => (s.conn c).lastPingSent := by
  unfold bestUnpinged List.argmin
  rw [List.foldl_filter]
  congr 1
  funext find c
  cases find with
  | none => cases s.isPingable c now <;> rfl
  | some f =>
    cases s.isPingable c now with
    | false => rfl
    | true => simp [List.argAux, morePingable]

variable {env s now}

theorem bestUnpinged_spec {c : ℕ} (h : s.bestUnpinged now = some c) :
    c ∈ s.unpinged ∧ s.isPingable c now = true ∧ ∀ c' ∈ s.unpinged, s.isPingable c' now = true →
      (s.conn c).lastPingSent ≤ (s.conn c').lastPingSent := by
  rw [bestUnpinged_eq] at h
  have ⟨hc, hpingable⟩ := List.mem_filter.mp (List.argmin_mem h)
  refine ⟨hc, hpingable, fun c' hc' hpingable' => ?_⟩
  have hmem : c' ∈ s.unpinged.filter fun c => s.isPingable c now :=
    List.mem_filter.mpr ⟨hc', hpingable'⟩
  exact List.le_of_mem_argmin (f := fun c => (s.conn c).lastPingSent) hmem h

theorem nodup_insertPointer (env : Environment) {set : List ℕ} (h : set.Nodup) (c : ℕ) :
    (insertPointer env c set).Nodup := by
  unfold insertPointer
  split
  · exact h
  · rename_i hc
    exact (List.perm_orderedInsert _ c set).nodup_iff.mpr (List.nodup_cons.mpr ⟨hc, h⟩)

theorem nodup_foldl_insertPointer (env : Environment) {cs set : List ℕ} (h : set.Nodup) :
    (cs.foldl (fun set c => insertPointer env c set) set).Nodup := by
  induction cs generalizing set with
  | nil => exact h
  | cons a cs ih => exact ih (nodup_insertPointer env h a)

/-- What is known since a ping, with the pings that have followed it: every connection that was
not pinged since was pinged before it, and as long as such a one is in the pinged set, the set
has not been emptied. -/
structure Since (s : IceTransport) (between : List Choice) (earlier : Choice) : Prop where
  known : earlier.conn < s.memory.size
  positive : 0 < earlier.now
  later : earlier.now ≤ (s.conn earlier.conn).lastPingSent
  others : ∀ c, c ≠ earlier.conn → (∀ ch ∈ between, ch.conn ≠ c) →
    (s.conn c).lastPingSent < earlier.now
  kept : ∀ c ∈ s.pinged, c ≠ earlier.conn → (∀ ch ∈ between, ch.conn ≠ c) →
    earlier.conn ∈ s.pinged ∨ earlier.conn ∉ s.connections

/-- What carries over from one ping to the next. -/
structure Rotation (s : IceTransport) (choices : List Choice) : Prop extends Books s where
  nodup : s.connections.Nodup ∧ s.unpinged.Nodup ∧ s.pinged.Nodup
  bounded : ∀ c ∈ s.connections, c < s.memory.size
  agree : s.controllerSelected = s.selected
  selected : ∀ c, s.selected = some c → c ∈ s.connections
  clock : 0 ≤ s.lastPingSentMs
  last : ∀ c, (s.conn c).lastPingSent ≤ s.lastPingSentMs
  since : ∀ between earlier older, choices = between ++ earlier :: older → Since s between earlier

theorem rotation_empty : Rotation {} [] := by
  have hnone : ∀ c, ({} : IceTransport).conn c = blankConnection := fun c => by simp [conn, Heap.get?]
  refine ⟨⟨?_, ?_⟩, ⟨.nil, .nil, .nil⟩, ?_, rfl, ?_, le_refl _, fun c => ?_, fun between earlier older h => ?_⟩
  · simp
  · simp
  · simp
  · simp
  · rw [hnone]
    exact le_refl _
  · simp at h

/-- What is known since a ping carries over when the times of the pings stay, no connection
becomes a pinged one, and the one of that ping stays pinged or missing. -/
theorem Since.carry {s t : IceTransport} {between : List Choice} {earlier : Choice} (h : Since s between earlier)
    (hsize : s.memory.size ≤ t.memory.size)
    (htimes : ∀ c, (t.conn c).lastPingSent = (s.conn c).lastPingSent) (hpinged : ∀ c ∈ t.pinged, c ∈ s.pinged)
    (hstays : earlier.conn ∈ s.pinged ∨ earlier.conn ∉ s.connections →
      earlier.conn ∈ t.pinged ∨ earlier.conn ∉ t.connections) : Since t between earlier := by
  refine ⟨h.known.trans_le hsize, h.positive, ?_, fun c hne hbetween => ?_, fun c hc hne hbetween => ?_⟩
  · rw [htimes]
    exact h.later
  · rw [htimes]
    exact h.others c hne hbetween
  · exact hstays (h.kept c (hpinged c hc) hne hbetween)

namespace Rotation
variable {s t : IceTransport} {choices : List Choice} {env : Environment}

/-- The books, the times of the pings and the connections stay, up to the order. -/
theorem same (h : Rotation s choices) (hsize : t.memory.size = s.memory.size)
    (hperm : t.connections.Perm s.connections) (hunpinged : t.unpinged = s.unpinged)
    (hpinged : t.pinged = s.pinged) (hlast : t.lastPingSentMs = s.lastPingSentMs)
    (htimes : ∀ c, (t.conn c).lastPingSent = (s.conn c).lastPingSent)
    (hselection : t.controllerSelected = s.controllerSelected ∧ t.selected = s.selected ∨
      ∃ c ∈ s.connections, t.controllerSelected = some c ∧ t.selected = some c) :
    Rotation t choices := by
  refine ⟨⟨?_, fun c => ?_⟩, ⟨hperm.nodup_iff.mpr h.nodup.1, ?_, ?_⟩, fun c hc => ?_, ?_, fun c hc => ?_,
    ?_, fun c => ?_, fun between earlier older hchoices => ?_⟩
  · rw [hunpinged, hpinged]
    exact h.disjoint
  · rw [hperm.mem_iff, hunpinged, hpinged]
    exact h.union c
  · rw [hunpinged]
    exact h.nodup.2.1
  · rw [hpinged]
    exact h.nodup.2.2
  · rw [hsize]
    exact h.bounded c (hperm.mem_iff.mp hc)
  · rcases hselection with ⟨hcontroller, hselected⟩ | ⟨n, -, hcontroller, hselected⟩
    · rw [hcontroller, hselected]
      exact h.agree
    · rw [hcontroller, hselected]
  · rw [hperm.mem_iff]
    rcases hselection with ⟨-, hselected⟩ | ⟨n, hn, -, hselected⟩
    · exact h.selected c (hselected.symm.trans hc)
    · rw [hselected, Option.some.injEq] at hc
      exact hc ▸ hn
  · rw [hlast]
    exact h.clock
  · rw [htimes, hlast]
    exact h.last c
  · refine (h.since between earlier older hchoices).carry hsize.ge htimes (fun c hc => hpinged ▸ hc) ?_
    rw [hpinged, hperm.mem_iff]
    exact id

theorem keeps (h : Rotation s choices) (ht : Keeps s t) : Rotation t choices :=
  h.same ht.size ht.perm ht.unpinged ht.pinged ht.lastPingSentMs (fun c => (ht.times c).lastPingSent)
    ht.selection

theorem recordPingResponse (h : Rotation s choices) (c : ℕ) (rtt now : ℤ) :
    Rotation (s.modifyConn c fun k => k.recordPingResponse rtt now) choices := by
  refine h.same (Heap.size_modify _ _ _) (.refl _) rfl rfl rfl (fun c' => ?_) (Or.inl ⟨rfl, rfl⟩)
  rw [conn_modifyConn]
  split <;> rfl

theorem add (h : Rotation s choices) (port : ℕ) (addr : SocketAddress) (remoteUfrag : Bytes)
    (remotePriority : ℕ) :
    Rotation (s.addConnection env port addr remoteUfrag remotePriority) choices := by
  have hnew : s.memory.size ∉ s.connections := fun hmem => lt_irrefl _ (h.bounded _ hmem)
  have hnot : s.memory.size ∉ s.unpinged ∧ s.memory.size ∉ s.pinged :=
    not_or.mp (hnew ∘ (h.union _).mpr)
  have hsize : (s.addConnection env port addr remoteUfrag remotePriority).memory.size =
      s.memory.size + 1 := Heap.size_alloc _ _
  have htimes := sameTimes_addConnection env s port addr remoteUfrag remotePriority
  refine ⟨⟨fun c hc => ?_, fun c => ?_⟩, ⟨?_, nodup_insertPointer env h.nodup.2.1 _, h.nodup.2.2⟩,
    fun c hc => ?_, h.agree, fun c hc => List.mem_append_left _ (h.selected c hc), h.clock, fun c => ?_,
    fun between earlier older hchoices => ?_⟩
  · show c ∉ insertPointer env s.memory.size s.unpinged
    rw [mem_insertPointer, not_or]
    exact ⟨fun heq => hnot.2 (heq ▸ hc), h.disjoint c hc⟩
  · show c ∈ s.connections ++ [s.memory.size] ↔ c ∈ insertPointer env s.memory.size s.unpinged ∨ c ∈ s.pinged
    rw [List.mem_append, List.mem_singleton, mem_insertPointer, h.union]
    tauto
  · exact List.nodup_append.mpr ⟨h.nodup.1, List.nodup_singleton _,
      fun a ha b hb heq => hnew (List.mem_singleton.mp hb ▸ heq ▸ ha)⟩
  · rw [hsize]
    rcases List.mem_append.mp hc with hold | hlast
    · exact (h.bounded c hold).trans (Nat.lt_succ_self _)
    · rw [List.mem_singleton.mp hlast]
      exact Nat.lt_succ_self _
  · rw [(htimes c).lastPingSent]
    exact h.last c
  · have hsince := h.since between earlier older hchoices
    refine hsince.carry (hsize.ge.trans' (Nat.le_succ _)) (fun c => (htimes c).lastPingSent)
      (fun c hc => hc) fun hstays => ?_
    apply hstays.imp_right
    intro hmissing hmem
    rcases List.mem_append.mp hmem with hold | hlast
    · exact hmissing hold
    · exact hsince.known.ne (List.mem_singleton.mp hlast)

theorem forgets (h : Rotation s choices) {c : ℕ} (hf : Forgets env s c t)
    (hkeeps : s.selected = some c → s.Replaced env c) : Rotation t choices := by
  have hmem : ∀ c', c' ∈ s.connections.erase c ↔ c' ≠ c ∧ c' ∈ s.connections :=
    fun c' => h.nodup.1.mem_erase_iff
  have hselection : t.controllerSelected = t.selected ∧ ∀ n, t.selected = some n → n ∈ t.connections := by
    by_cases hselected : s.selected = some c
    · have ⟨n, hn, hcontroller, hnew⟩ := hf.replaced hselected (hkeeps hselected)
      refine ⟨hcontroller.trans hnew.symm, fun n' hn' => hf.perm.mem_iff.mpr ?_⟩
      rw [hnew, Option.some.injEq] at hn'
      exact hn' ▸ hn
    · have ⟨hcontroller, hsame⟩ := hf.kept hselected
      refine ⟨hcontroller.trans (h.agree.trans hsame.symm), fun n hn => hf.perm.mem_iff.mpr ?_⟩
      rw [hsame] at hn
      refine (hmem n).mpr ⟨?_, h.selected n hn⟩
      rintro rfl
      exact hselected hn
  refine ⟨⟨fun c' hc' => ?_, fun c' => ?_⟩, ⟨hf.perm.nodup_iff.mpr (h.nodup.1.erase c), ?_, ?_⟩,
    fun c' hc' => ?_, hselection.1, hselection.2, ?_, fun c' => ?_, fun between earlier older hchoices => ?_⟩
  · rw [hf.pinged, h.nodup.2.2.mem_erase_iff] at hc'
    rw [hf.unpinged, h.nodup.2.1.mem_erase_iff]
    exact fun hboth => h.disjoint c' hc'.2 hboth.2
  · rw [hf.perm.mem_iff, hmem, h.union, hf.unpinged, hf.pinged, h.nodup.2.1.mem_erase_iff,
      h.nodup.2.2.mem_erase_iff]
    tauto
  · rw [hf.unpinged]
    exact h.nodup.2.1.erase c
  · rw [hf.pinged]
    exact h.nodup.2.2.erase c
  · rw [hf.size]
    exact h.bounded c' ((hmem c').mp (hf.perm.mem_iff.mp hc')).2
  · rw [hf.lastPingSentMs]
    exact h.clock
  · rw [(hf.times c').lastPingSent, hf.lastPingSentMs]
    exact h.last c'
  · refine (h.since between earlier older hchoices).carry hf.size.ge (fun c' => (hf.times c').lastPingSent)
      (fun c' hc' => ?_) fun hstays => ?_
    · rw [hf.pinged] at hc'
      exact List.mem_of_mem_erase hc'
    · rw [hf.pinged, h.nodup.2.2.mem_erase_iff, hf.perm.mem_iff, hmem]
      by_cases hsame : earlier.conn = c
      · exact Or.inr fun hboth => hboth.1 hsame
      · rcases hstays with hpinged | hmissing
        · exact Or.inl ⟨hsame, hpinged⟩
        · exact Or.inr fun hboth => hmissing hboth.2

theorem conn_refillUnpinged (s : IceTransport) (now : ℤ) (c : ℕ) :
    (s.refillUnpinged env now).conn c = s.conn c := by
  unfold refillUnpinged
  split <;> rfl

theorem refill (h : Rotation s choices) (now : ℤ) : Rotation (s.refillUnpinged env now) choices := by
  unfold refillUnpinged
  split
  · exact h
  · refine ⟨⟨fun c hc => ?_, fun c => ?_⟩, ⟨h.nodup.1, nodup_foldl_insertPointer env h.nodup.2.1, .nil⟩,
      h.bounded, h.agree, h.selected, h.clock, h.last, fun between earlier older hchoices => ?_⟩
    · exact absurd hc List.not_mem_nil
    · show c ∈ s.connections ↔ c ∈ s.pinged.foldl (fun set c => insertPointer env c set) s.unpinged ∨ c ∈ []
      rw [mem_foldl_insertPointer, h.union]
      simp
    · have hsince := h.since between earlier older hchoices
      exact ⟨hsince.known, hsince.positive, hsince.later, hsince.others,
        fun c hc => absurd hc List.not_mem_nil⟩

/-- A connection moves to the pinged ones when it is pinged. -/
structure Marks (s : IceTransport) (c : ℕ) (now : ℤ) (t : IceTransport) : Prop where
  size : t.memory.size = s.memory.size
  connections : t.connections = s.connections
  selection : t.controllerSelected = s.controllerSelected ∧ t.selected = s.selected
  lastPingSentMs : t.lastPingSentMs = now
  pinged : ∀ c', c' ∈ t.pinged ↔ c' = c ∨ c' ∈ s.pinged
  unpinged : ∀ c', c' ∈ t.unpinged ↔ c' ≠ c ∧ c' ∈ s.unpinged
  nodup : t.unpinged.Nodup ∧ t.pinged.Nodup
  lastPingSent : ∀ c', (t.conn c').lastPingSent = if c' = c then now else (s.conn c').lastPingSent

theorem marks (h : Rotation s choices) {c : ℕ} (hc : c ∈ s.connections) (now : ℤ) (id : Bytes) :
    Marks s c now (s.pingConnection env c now id) := by
  have htimes : ∀ c', ((s.modifyConn c fun k => k.ping now id).conn c').lastPingSent =
      if c' = c then now else (s.conn c').lastPingSent := by
    intro c'
    rw [conn_modifyConn]
    by_cases hsame : c' = c
    · rw [if_pos ⟨hsame.symm, hsame ▸ h.bounded c hc⟩, if_pos hsame]
      rfl
    · rw [if_neg fun hboth => hsame hboth.1.symm, if_neg hsame]
  have hsize : (s.modifyConn c fun k => k.ping now id).memory.size = s.memory.size :=
    Heap.size_modify _ _ _
  unfold pingConnection markConnectionPinged
  dsimp only
  split
  · rename_i hpinged
    have hpinged : c ∈ s.pinged := hpinged
    refine ⟨hsize, rfl, ⟨rfl, rfl⟩, rfl, fun c' => ?_, fun c' => ?_, h.nodup.2, htimes⟩
    · show c' ∈ s.pinged ↔ _
      rw [iff_or_self]
      rintro rfl
      exact hpinged
    · show c' ∈ s.unpinged ↔ _
      rw [iff_and_self]
      rintro hunpinged rfl
      exact h.disjoint c' hpinged hunpinged
  · refine ⟨hsize, rfl, ⟨rfl, rfl⟩, rfl, fun c' => mem_insertPointer env,
      fun c' => h.nodup.2.1.mem_erase_iff, ⟨h.nodup.2.1.erase c, nodup_insertPointer env h.nodup.2.2 c⟩,
      htimes⟩

theorem ping (h : Rotation s choices) {c : ℕ} {now : ℤ} (hc : c ∈ s.connections)
    (ht : Marks s c now t) (hdue : s.lastPingSentMs < now) (before : IceTransport) :
    Rotation t (⟨before, c, now⟩ :: choices) := by
  refine ⟨⟨fun c' hc' => ?_, fun c' => ?_⟩, ⟨ht.connections.symm ▸ h.nodup.1, ht.nodup⟩, fun c' hc' => ?_, ?_,
    fun c' hc' => ?_, ?_, fun c' => ?_, fun between earlier older hchoices => ?_⟩
  · rw [ht.unpinged]
    rintro ⟨hne, hunpinged⟩
    rcases (ht.pinged c').mp hc' with rfl | hpinged
    · exact hne rfl
    · exact h.disjoint c' hpinged hunpinged
  · rw [ht.connections, ht.unpinged, ht.pinged, h.union]
    by_cases hsame : c' = c
    · subst hsame
      simpa using (h.union c').mp hc
    · simp [hsame]
  · rw [ht.size]
    exact h.bounded c' (ht.connections ▸ hc')
  · rw [ht.selection.1, ht.selection.2]
    exact h.agree
  · rw [ht.selection.2] at hc'
    exact ht.connections.symm ▸ h.selected c' hc'
  · rw [ht.lastPingSentMs]
    exact (h.clock.trans_lt hdue).le
  · rw [ht.lastPingSent, ht.lastPingSentMs]
    split
    · exact le_refl _
    · exact ((h.last c').trans_lt hdue).le
  · cases between with
    | nil =>
      -- nothing was pinged at this time before
      obtain ⟨rfl, -⟩ := List.cons.inj hchoices
      refine ⟨ht.size.symm ▸ h.bounded c hc, h.clock.trans_lt hdue, ?_, fun c' hne _ => ?_,
        fun _ _ _ _ => Or.inl ((ht.pinged c).mpr (Or.inl rfl))⟩
      · rw [ht.lastPingSent, if_pos rfl]
      · rw [ht.lastPingSent, if_neg hne]
        exact (h.last c').trans_lt hdue
    | cons ch between =>
      obtain ⟨rfl, hrest⟩ := List.cons.inj hchoices
      have hsince := h.since between earlier older hrest
      refine ⟨ht.size.symm ▸ hsince.known, hsince.positive, ?_, fun c' hne hbetween => ?_,
        fun c' hc' hne hbetween => ?_⟩
      · rw [ht.lastPingSent]
        split
        · exact ((hsince.later.trans (h.last _)).trans_lt hdue).le
        · exact hsince.later
      · have hother : c' ≠ c := fun hsame => hbetween _ List.mem_cons_self hsame.symm
        rw [ht.lastPingSent, if_neg hother]
        exact hsince.others c' hne fun ch hch => hbetween ch (List.mem_cons_of_mem _ hch)
      · have hother : c' ≠ c := fun hsame => hbetween _ List.mem_cons_self hsame.symm
        have hold : c' ∈ s.pinged := ((ht.pinged c').mp hc').resolve_left hother
        rw [ht.connections, ht.pinged]
        apply (hsince.kept c' hold hne fun ch hch => hbetween ch (List.mem_cons_of_mem _ hch)).imp_left
        exact Or.inr

/-- The key: a connection that is chosen again as the earliest one leaves no other pingable one
that was not pinged since. -/
theorem between {c : ℕ} {now : ℤ} (h : Rotation s choices) {between older : List Choice} {earlier : Choice}
    (hchoices : choices = between ++ earlier :: older)
    (hbest : (s.refillUnpinged env now).bestUnpinged now = some c) (hsame : c = earlier.conn)
    {other : ℕ} (hother : other ∈ s.connections) (hne : other ≠ c)
    (hpingable : (s.refillUnpinged env now).isPingable other now = true) :
    ∃ ch ∈ between, ch.conn = other := by
  by_contra hnone
  push Not at hnone
  subst hsame
  have hrefill : Rotation (s.refillUnpinged env now) choices := h.refill now
  have hsince := hrefill.since between earlier older hchoices
  have ⟨hunpinged, _, hearliest⟩ := bestUnpinged_spec hbest
  have hbefore := hsince.others other hne hnone
  have hconnections : (s.refillUnpinged env now).connections = s.connections := by
    unfold refillUnpinged
    split <;> rfl
  rcases (hrefill.union other).mp (hconnections ▸ hother) with hin | hin
  · have hle := hearliest other hin hpingable
    have hlater := hsince.later
    omega
  · rcases hsince.kept other hin hne hnone with hpinged | hmissing
    · exact hrefill.disjoint _ hpinged hunpinged
    · exact hmissing ((hrefill.union _).mpr (Or.inl hunpinged))

theorem lastPingSentMs_refillUnpinged (env : Environment) (s : IceTransport) (now : ℤ) :
    (s.refillUnpinged env now).lastPingSentMs = s.lastPingSentMs := by
  unfold refillUnpinged
  split <;> rfl

theorem pingNext (h : Rotation s choices) (now : ℤ) (id : Bytes) :
    Rotation (Recorded.pingNext env now s id)
      (((s.selectConnectionToPing env (s.lastPingSentMs - pingIntervalDiff) now).2.1.map
        fun c => ⟨s, c, now⟩).toList ++ choices) := by
  have hinterval : ∀ {t : IceTransport} {choices : List Choice} (curPingInterval : ℤ),
      Rotation t choices → Rotation { t with curPingInterval } choices :=
    fun _ ht => ht.same rfl (.refl _) rfl rfl rfl (fun _ => rfl) (Or.inl ⟨rfl, rfl⟩)
  have hbefore : now ≥ s.lastPingSentMs - pingIntervalDiff + weakPingInterval → s.lastPingSentMs < now := by
    unfold pingIntervalDiff weakPingInterval
    omega
  have hselects := selects env s now
  unfold Recorded.pingNext
  generalize s.selectConnectionToPing env (s.lastPingSentMs - pingIntervalDiff) now = r at hselects ⊢
  obtain ⟨t, c, interval⟩ := r
  dsimp only at hselects ⊢
  cases hselects with
  | waits => exact hinterval interval h
  | none => exact hinterval interval (h.refill now)
  | @selected c hdue hc =>
    have hmem : c ∈ s.connections := h.selected c (h.agree.symm.trans hc)
    exact hinterval interval (h.ping hmem (h.marks hmem now id) (hbefore hdue) s)
  | @fallback c hdue hbest =>
    have hrefill : Rotation (s.refillUnpinged env now) choices := h.refill now
    have hmem := (hrefill.union c).mpr (Or.inl (bestUnpinged_spec hbest).1)
    have hlast := (lastPingSentMs_refillUnpinged env s now).trans_lt (hbefore hdue)
    exact hinterval interval (hrefill.ping hmem (hrefill.marks hmem now id) hlast s)

end Rotation
end IceTransport

namespace Choice
variable {env : Environment} {s : IceTransport} {now : ℤ} {c : ℕ}

/-- A choice that is not that of the selected connection is the best of the unpinged ones. -/
theorem bestUnpinged_of_fallback
    (hc : (s.selectConnectionToPing env (s.lastPingSentMs - pingIntervalDiff) now).2.1 = some c)
    (h : Fallback ⟨s, c, now⟩) : (s.refillUnpinged env now).bestUnpinged now = some c := by
  have hselects := selects env s now
  generalize (s.selectConnectionToPing env (s.lastPingSentMs - pingIntervalDiff) now).1 = t at hselects
  rw [hc] at hselects
  cases hselects with
  | selected hdue hcontroller hpast hwritable => exact absurd ⟨hwritable, hpast⟩ (h c hcontroller)
  | fallback hdue hbest => exact hbest

theorem earliest_of_fallback
    (hc : (s.selectConnectionToPing env (s.lastPingSentMs - pingIntervalDiff) now).2.1 = some c)
    (h : Fallback ⟨s, c, now⟩) : Earliest env ⟨s, c, now⟩ := by
  have ⟨hunpinged, hpingable, hearliest⟩ := bestUnpinged_spec (bestUnpinged_of_fallback hc h)
  refine ⟨hunpinged, hpingable, fun c' hc' hpingable' => ?_⟩
  have hle := hearliest c' hc' hpingable'
  rw [Rotation.conn_refillUnpinged, Rotation.conn_refillUnpinged] at hle
  exact hle

end Choice

namespace Pinging
variable {env : Environment} {x : Pinging} {e : Event}

/-- A run that is fair so far, with what carries over to the next ping. -/
structure Sound (env : Environment) (x : Pinging) : Prop extends Fair env x where
  rotation : Rotation x.transport x.choices

theorem sound_empty (env : Environment) : Sound env {} := by
  refine ⟨⟨rotation_empty.toBooks, fun ch hch => ?_, fun newer later between earlier older h => ?_⟩,
    rotation_empty⟩
  · exact absurd hch List.not_mem_nil
  · simp at h

/-- An event without a ping. -/
theorem Sound.idle (h : Sound env x) {t : IceTransport} (ht : Rotation t x.choices) :
    Sound env ⟨t, x.choices⟩ :=
  ⟨⟨ht.toBooks, h.earliest, h.between⟩, ht⟩

theorem Sound.choose (h : Sound env x) {s t : IceTransport} {now : ℤ} {c : ℕ}
    (hs : Rotation s x.choices) (ht : Rotation t (⟨s, c, now⟩ :: x.choices))
    (hc : (s.selectConnectionToPing env (s.lastPingSentMs - pingIntervalDiff) now).2.1 = some c) :
    Sound env ⟨t, ⟨s, c, now⟩ :: x.choices⟩ := by
  refine ⟨⟨ht.toBooks, fun ch hch hfallback => ?_, fun newer later between earlier older hchoices => ?_⟩, ht⟩
  · rcases List.mem_cons.mp hch with rfl | hold
    · exact Choice.earliest_of_fallback hc hfallback
    · exact h.earliest ch hold hfallback
  · intro hfallback hsame other hother hne hpingable
    cases newer with
    | nil =>
      obtain ⟨rfl, hrest⟩ := List.cons.inj hchoices
      exact hs.between hrest (Choice.bestUnpinged_of_fallback hc hfallback) hsame hother hne hpingable
    | cons ch newer =>
      obtain ⟨-, hrest⟩ := List.cons.inj hchoices
      exact h.between newer later between earlier older hrest hfallback hsame other hother hne hpingable

theorem Sound.timer (h : Sound env x) (now : ℤ) (id : Bytes) : Sound env (x.step env (.timer now id)) := by
  by_cases hstart : x.transport.startPinging = true
  · have hs : Rotation (x.transport.updateConnectionStates env now) x.choices :=
      h.rotation.keeps (settles_updateConnectionStates env x.transport now).toKeeps
    have ht : Rotation (Recorded.pingNext env now (x.transport.updateConnectionStates env now) id) _ :=
      hs.pingNext now id
    have hstep : x.step env (.timer now id) =
        ⟨Recorded.pingNext env now (x.transport.updateConnectionStates env now) id,
          (choice env x.transport (.timer now id)).toList ++ x.choices⟩ :=
      congrArg (Pinging.mk · _) (if_pos hstart)
    have hchoice : choice env x.transport (.timer now id) =
        (((x.transport.updateConnectionStates env now).selectConnectionToPing env
          ((x.transport.updateConnectionStates env now).lastPingSentMs - pingIntervalDiff) now).2.1.map
            fun c => ⟨x.transport.updateConnectionStates env now, c, now⟩) := if_pos hstart
    rw [hstep, hchoice]
    generalize x.transport.updateConnectionStates env now = s at hs ht ⊢
    cases hc : (s.selectConnectionToPing env (s.lastPingSentMs - pingIntervalDiff) now).2.1 with
    | none =>
      rw [hc] at ht
      exact h.idle ht
    | some c =>
      rw [hc] at ht
      exact h.choose hs ht hc
  · have hstep : x.step env (.timer now id) = x := by
      unfold step choice IceTransport.step
      simp [hstart]
    rw [hstep]
    exact h

theorem Sound.step (h : Sound env x) (hkeeps : KeepsSelected env x.transport e) :
    Sound env (x.step env e) := by
  have hother : choice env x.transport e = none → Rotation (x.transport.step env e) x.choices →
      Sound env (x.step env e) := by
    intro hnone ht
    unfold Pinging.step
    rw [hnone]
    exact h.idle ht
  have hrotation : (∀ now id, e ≠ .timer now id) → Rotation (x.transport.step env e) x.choices := by
    intro hnot
    have heffect := effect env x.transport e
    generalize x.transport.step env e = t at heffect
    cases heffect with
    | settled _ ht => exact h.rotation.keeps ht.toKeeps
    | answered _ _ ht => exact (h.rotation.recordPingResponse _ _ _).keeps ht.toKeeps
    | added _ ht _ => exact (h.rotation.add _ _ _ _).keeps ht
    | pinged he => exact absurd he (hnot _ _)
    | destroyed hc _ ht => exact h.rotation.forgets ht (hkeeps _ hc)
  cases e with
  | timer now id => exact h.timer now id
  | packet port addr data now => exact hother rfl (hrotation fun _ _ he => by cases he)
  | setRemoteIceParams params now => exact hother rfl (hrotation fun _ _ he => by cases he)
  | destroyConnection c now => exact hother rfl (hrotation fun _ _ he => by cases he)

theorem transport_run (x : Pinging) (es : List Event) :
    (Runs.run (step env) x es).transport = Runs.run (IceTransport.step env) x.transport es := by
  induction es generalizing x with
  | nil => rfl
  | cons e es ih => exact ih (x.step env e)

theorem along_transport {P : IceTransport → Event → Prop} (x : Pinging) (es : List Event) :
    Runs.Along (step env) (fun x e => P x.transport e) x es ↔
      Runs.Along (IceTransport.step env) P x.transport es := by
  induction es generalizing x with
  | nil => exact Iff.rfl
  | cons e es ih =>
    rw [Runs.along_cons, Runs.along_cons, ih]
    exact Iff.rfl

/-- In every run in which the selected connection is destroyed only when there is another one
to switch to, the pinging is fair. -/
theorem fair_run (env : Environment) (es : List Event)
    (h : Runs.Along (IceTransport.step env) (KeepsSelected env) {} es) :
    Fair env (Runs.run (step env) {} es) :=
  (Runs.invariant_run (fun _ _ hx hkeeps => hx.step hkeeps) (sound_empty env)
    ((along_transport {} es).mpr h)).toFair

end Pinging

namespace Pinging

/-- A connection is pinged, and destroyed before it is selected. -/
theorem fair_destroyed : Fair failoverEnvironment
    (Runs.run (step failoverEnvironment) {} (askedEvents ++ [.destroyConnection 0 1100])) := by
  apply fair_run
  have hfirst : ({} : IceTransport).step failoverEnvironment (.setRemoteIceParams conflictPeer 1000) =
      offeredTransport := rfl
  have hnone : offeredTransport.addresses.lookup (0, peerAddress) = none := by decide +kernel
  have hselected : askedTransport.selected = none := by decide +kernel
  rw [Runs.along_append, run_asked]
  refine ⟨⟨fun c hc => hc.elim, ?_, fun c hc => hc.elim, trivial⟩, fun c _ hc => ?_, trivial⟩
  · rw [hfirst]
    rintro c ⟨hlookup, -⟩
    rw [hnone] at hlookup
    cases hlookup
  · rw [hselected] at hc
    cases hc

end Pinging

namespace IceTransport

/-- The second ping on the connection, which has answered the first one and is selected. -/
def secondPingTransport : IceTransport :=
  (askedTransport.checkResponse failoverEnvironment 0
    (pingMessage (pingId 1) firstDigest [115, 239, 149, 60]) 1060).step failoverEnvironment
      (.timer 1200 [1, 2, 3, 4, 5, 6, 7, 8, 9, 10, 11, 12])

/-- The peer answers the second ping with a role conflict. -/
theorem step_secondPing :
    secondPingTransport.step failoverEnvironment (.packet 0 peerAddress roleConflictResponse 1210) =
      secondPingTransport.checkResponse failoverEnvironment 0 conflictMessage 1210 := by
  have hremote : (secondPingTransport.conn 0).remote = conflictPeer := by decide +kernel
  have hmsg : Stun.onReadPacket failoverEnvironment.hmac failoverEnvironment.beyond
      failoverEnvironment.iceParams conflictPeer roleConflictResponse = .checkResponse conflictMessage :=
    onReadPacket_checkResponse.mpr
      ⟨fingerprint_roleConflict, by decide +kernel, Or.inr rfl, by decide +kernel⟩
  exact step_response 1210 (by decide +kernel) (by decide +kernel) (hremote ▸ hmsg)

end IceTransport

namespace Pinging

/-- The selected connection is destroyed, and the timer pings it afterwards. -/
theorem destroyed_pinged : ¬Fair failoverEnvironment (Runs.run (step failoverEnvironment) {}
    (askedEvents ++ [.packet 0 peerAddress firstResponse 1060,
      .timer 1200 [1, 2, 3, 4, 5, 6, 7, 8, 9, 10, 11, 12],
      .packet 0 peerAddress roleConflictResponse 1210, .timer 2000 (pingId 3)])) := by
  intro hfair
  have hunion := hfair.books.union 0
  have hsecond : (askedTransport.checkResponse failoverEnvironment 0
      (pingMessage (pingId 1) firstDigest [115, 239, 149, 60]) 1060).step failoverEnvironment
        (.timer 1200 [1, 2, 3, 4, 5, 6, 7, 8, 9, 10, 11, 12]) = secondPingTransport := rfl
  rw [transport_run, Runs.run_append, run_asked, Runs.run_cons, step_asked, Runs.run_cons, hsecond,
    Runs.run_cons, step_secondPing, Runs.run_cons, Runs.run_nil] at hunion
  have hpinged : 0 ∈ ((secondPingTransport.checkResponse failoverEnvironment 0 conflictMessage 1210).step
      failoverEnvironment (.timer 2000 (pingId 3))).pinged := by
    decide +kernel
  have hgone : 0 ∉ ((secondPingTransport.checkResponse failoverEnvironment 0 conflictMessage 1210).step
      failoverEnvironment (.timer 2000 (pingId 3))).connections := by
    decide +kernel
  exact hgone (hunion.mpr (Or.inr hpinged))

end Pinging
end Ice
end XrtcServer
