import Mathlib.Data.List.Nodup
import Mathlib.Data.List.Range
import XrtcServer.Runs

/-! The UDP socket, with the list of the datagrams that it could not send at once. What `sendto`
does with each datagram is up to the system. -/
namespace XrtcServer
namespace Udp

/-- A datagram with the number of its `send_to` call, which no code reads. -/
structure UdpPacketData (α : Type) where
  data : List UInt8
  addr : α
  number : ℕ
  deriving DecidableEq

def UdpPacketData.size {α : Type} (packet : UdpPacketData α) : ℕ := packet.data.length

inductive Outcome
  | sent
  | wouldBlock
  | error
  deriving DecidableEq

/-- `sendto` counts the bytes that it sent, and none is taken for an error. The system sends no
datagram that is longer than an `int` counts. -/
def sockSendTo (size : ℕ) : Outcome → ℤ
  | .sent => if size = 0 then -1 else size
  | .wouldBlock => 0
  | .error => -1

/-- `write` says that the WRITE event is active. For the record, `given` has the datagrams of the
calls that returned, `returned` what they returned, `left` the datagrams that the system sent,
`failed` those that it refused with an error. -/
structure AsyncUdpSocket (α : Type) where
  udpPacketList : List (UdpPacketData α) := []
  write : Bool := false
  given : List (UdpPacketData α) := []
  returned : List (UdpPacketData α × ℤ) := []
  left : List (UdpPacketData α) := []
  failed : List (UdpPacketData α) := []

/-- How the loop over the list ends: with an empty list, at an error, or at a datagram to be sent
again. -/
inductive Exit
  | done
  | failed
  | again
  deriving DecidableEq

namespace AsyncUdpSocket
variable {α : Type}

/-- What the system does with a datagram. -/
def sendto (s : AsyncUdpSocket α) (packet : UdpPacketData α) : Outcome → AsyncUdpSocket α
  | .sent => { s with left := s.left ++ [packet] }
  | .wouldBlock => s
  | .error => { s with failed := s.failed ++ [packet] }

/-- The loop that both functions have, from the datagram with index `i` on. -/
def sendList (outcomes : ℕ → Outcome) : ℕ → List (UdpPacketData α) → AsyncUdpSocket α → Exit × AsyncUdpSocket α
  | _, [], s => (.done, s)
  | i, packet :: list, s =>
    let sent := sockSendTo packet.size (outcomes i)
    let s := s.sendto packet (outcomes i)
    if sent < 0 then (.failed, { s with udpPacketList := list })
    else if sent = 0 then (.again, s)
    else sendList outcomes (i + 1) list { s with udpPacketList := list }

def sendData (s : AsyncUdpSocket α) (outcomes : ℕ → Outcome) : AsyncUdpSocket α :=
  match sendList outcomes 0 s.udpPacketList s with
  | (.done, s) => { s with write := false }
  | (.failed, s) => s
  | (.again, s) => s

def answer (s : AsyncUdpSocket α) (packet : UdpPacketData α) (ret : ℤ) : AsyncUdpSocket α :=
  { s with given := s.given ++ [packet], returned := s.returned ++ [(packet, ret)] }

/-- The size is returned as an `int`. -/
def sendAgain (s : AsyncUdpSocket α) (packet : UdpPacketData α) : AsyncUdpSocket α :=
  { s with udpPacketList := s.udpPacketList ++ [packet], write := true }.answer packet ((packet.size : ℤ).bmod 4294967296)

/-- The datagram itself is tried after the list. -/
def addUdpPacket (s : AsyncUdpSocket α) (data : List UInt8) (addr : α) (outcomes : ℕ → Outcome) : AsyncUdpSocket α :=
  let packet : UdpPacketData α := ⟨data, addr, s.given.length⟩
  let outcome := outcomes s.udpPacketList.length
  match sendList outcomes 0 s.udpPacketList s with
  | (.failed, s) => s.answer packet (-1)
  | (.again, s) => s.sendAgain packet
  | (.done, s) =>
    let sent := sockSendTo packet.size outcome
    let s := s.sendto packet outcome
    if sent < 0 then s.answer packet (-1)
    else if sent = 0 then s.sendAgain packet
    else s.answer packet sent

/-- A call or a writable event, with what the system does at each `sendto` in turn. -/
inductive Event (α : Type)
  | sendTo (data : List UInt8) (addr : α) (outcomes : ℕ → Outcome)
  | writable (outcomes : ℕ → Outcome)

def step (s : AsyncUdpSocket α) : Event α → AsyncUdpSocket α
  | .sendTo data addr outcomes => s.addUdpPacket data addr outcomes
  | .writable outcomes => if s.write then s.sendData outcomes else s

/-- Datagrams leave in the order of the calls and at most once, each that neither left nor waits
was refused itself, a call returns a negative value only for a datagram that is dropped, and the
list is watched. -/
structure Orderly (s : AsyncUdpSocket α) : Prop where
  order : s.left.Sublist s.given
  once : s.left.Nodup
  dropped : ∀ packet ∈ s.given, packet ∉ s.left → packet ∉ s.udpPacketList → packet ∈ s.failed
  negative : ∀ r ∈ s.returned, r.2 < 0 → r.1 ∉ s.left ∧ r.1 ∉ s.udpPacketList
  active : s.udpPacketList ≠ [] → s.write = true

/-- Every datagram before the one with this index is sent. -/
def Reaches (outcomes : ℕ → Outcome) (k : ℕ) : Prop := ∀ j < k, outcomes j = .sent

/-- No datagram of the list fails, the new one is not empty if it is sent, and its size is an
`int` if it is put into the list. -/
def Keeps (s : AsyncUdpSocket α) : Event α → Prop
  | .sendTo data _ outcomes =>
    (∀ k packet, s.udpPacketList[k]? = some packet → Reaches outcomes k → 0 ≤ sockSendTo packet.size (outcomes k)) ∧
      (Reaches outcomes s.udpPacketList.length → outcomes s.udpPacketList.length = .sent → data ≠ []) ∧
        (¬ Reaches outcomes s.udpPacketList.length ∨ outcomes s.udpPacketList.length = .wouldBlock →
          0 ≤ (data.length : ℤ).bmod 4294967296)
  | .writable _ => True

/-- `Orderly` with what the datagrams of a call are: each of those before has its number. -/
structure Sound (s : AsyncUdpSocket α) : Prop where
  order : (s.left ++ s.udpPacketList).Sublist s.given
  numbered : s.given.map UdpPacketData.number = List.range s.given.length
  refused : ∀ packet ∈ s.failed, packet ∈ s.given
  dropped : ∀ packet ∈ s.given, packet ∉ s.left → packet ∉ s.udpPacketList → packet ∈ s.failed
  negative : ∀ r ∈ s.returned, r.1 ∈ s.given ∧ (r.2 < 0 → r.1 ∉ s.left ∧ r.1 ∉ s.udpPacketList)
  active : s.udpPacketList ≠ [] → s.write = true

section Sound
variable {s : AsyncUdpSocket α}

theorem Sound.nodup (h : s.Sound) : s.given.Nodup := by
  apply List.Nodup.of_map UdpPacketData.number
  rw [h.numbered]
  exact List.nodup_range

theorem Sound.orderly (h : s.Sound) : s.Orderly where
  order := (List.sublist_append_left _ _).trans h.order
  once := ((List.sublist_append_left _ _).trans h.order).nodup h.nodup
  dropped := h.dropped
  negative := fun r hr => (h.negative r hr).2
  active := h.active

/-- The next call has a number of its own. -/
theorem Sound.fresh (h : s.Sound) (data : List UInt8) (addr : α) :
    (⟨data, addr, s.given.length⟩ : UdpPacketData α) ∉ s.given := by
  intro hmem
  have hnumber := List.mem_map_of_mem (f := UdpPacketData.number) hmem
  rw [h.numbered] at hnumber
  exact absurd (List.mem_range.mp hnumber) (Nat.lt_irrefl _)

/-- The first datagram of the list is sent, or refused, and leaves the list. -/
theorem Sound.pop (h : s.Sound) {packet : UdpPacketData α} {list : List (UdpPacketData α)}
    (hlist : s.udpPacketList = packet :: list) {outcome : Outcome} (houtcome : outcome ≠ .wouldBlock) :
    ({ s.sendto packet outcome with udpPacketList := list } : AsyncUdpSocket α).Sound := by
  have horder := h.order
  rw [hlist] at horder
  have hgiven : packet ∈ s.given := horder.subset (List.mem_append_right _ List.mem_cons_self)
  have hactive : s.write = true := h.active (by rw [hlist]; exact List.cons_ne_nil _ _)
  have hwaits {r} (hr : r ∈ s.returned) (hneg : r.2 < 0) : r.1 ∉ s.left ∧ r.1 ≠ packet ∧ r.1 ∉ list := by
    have ⟨hleft, hlist'⟩ := (h.negative r hr).2 hneg
    rw [hlist] at hlist'
    exact ⟨hleft, List.ne_of_not_mem_cons hlist', List.not_mem_of_not_mem_cons hlist'⟩
  cases outcome with
  | sent =>
    refine { order := ?_, numbered := h.numbered, refused := h.refused, dropped := ?_, negative := ?_, active := fun _ => hactive }
    · rw [sendto, List.append_assoc]
      exact horder
    · intro p hp hleft hlist'
      refine h.dropped p hp (fun hmem => hleft (List.mem_append_left _ hmem)) fun hmem => ?_
      rw [hlist] at hmem
      rcases List.mem_cons.mp hmem with rfl | hmem
      · exact hleft (List.mem_append_right _ List.mem_cons_self)
      · exact hlist' hmem
    · intro r hr
      refine ⟨(h.negative r hr).1, fun hneg => ?_⟩
      have ⟨hleft, hne, hlist'⟩ := hwaits hr hneg
      refine ⟨fun hmem => ?_, hlist'⟩
      rcases List.mem_append.mp hmem with hmem | hmem
      · exact hleft hmem
      · exact hne (List.mem_singleton.mp hmem)
  | wouldBlock => exact absurd rfl houtcome
  | error =>
    refine { order := ?_, numbered := h.numbered, refused := ?_, dropped := ?_, negative := ?_, active := fun _ => hactive }
    · exact ((List.sublist_cons_self packet list).append_left _).trans horder
    · intro p hp
      rcases List.mem_append.mp hp with hp | hp
      · exact h.refused p hp
      · exact List.mem_singleton.mp hp ▸ hgiven
    · intro p hp hleft hlist'
      by_cases hpacket : p = packet
      · exact List.mem_append_right _ (List.mem_singleton.mpr hpacket)
      · refine List.mem_append_left _ (h.dropped p hp hleft ?_)
        rw [hlist]
        exact List.not_mem_cons_of_ne_of_not_mem hpacket hlist'
    · intro r hr
      refine ⟨(h.negative r hr).1, fun hneg => ?_⟩
      have ⟨hleft, _, hlist'⟩ := hwaits hr hneg
      exact ⟨hleft, hlist'⟩

end Sound

section Loop
variable {s : AsyncUdpSocket α} {outcomes : ℕ → Outcome}

theorem sockSendTo_neg {size : ℕ} {outcome : Outcome} :
    sockSendTo size outcome < 0 ↔ outcome = .error ∨ outcome = .sent ∧ size = 0 := by
  cases outcome with
  | sent =>
    by_cases hsize : size = 0
    · simp [sockSendTo, hsize]
    · simp [sockSendTo, hsize]
  | wouldBlock => simp [sockSendTo]
  | error => simp [sockSendTo]

theorem sockSendTo_eq_zero {size : ℕ} {outcome : Outcome} : sockSendTo size outcome = 0 ↔ outcome = .wouldBlock := by
  cases outcome with
  | sent =>
    by_cases hsize : size = 0
    · simp [sockSendTo, hsize]
    · simp [sockSendTo, hsize]
  | wouldBlock => simp [sockSendTo]
  | error => simp [sockSendTo]

theorem eq_sent_of_pos {size : ℕ} {outcome : Outcome} (hneg : ¬ sockSendTo size outcome < 0)
    (hzero : sockSendTo size outcome ≠ 0) : outcome = .sent := by
  cases outcome with
  | sent => rfl
  | wouldBlock => exact absurd (sockSendTo_eq_zero.mpr rfl) hzero
  | error => exact absurd (sockSendTo_neg.mpr (.inl rfl)) hneg

@[simp] theorem given_sendto (packet : UdpPacketData α) (outcome : Outcome) : (s.sendto packet outcome).given = s.given := by
  cases outcome <;> rfl

@[simp] theorem returned_sendto (packet : UdpPacketData α) (outcome : Outcome) :
    (s.sendto packet outcome).returned = s.returned := by
  cases outcome <;> rfl

/-- The loop keeps the books, and answers no call. -/
theorem Sound.sendList {list : List (UdpPacketData α)} (h : s.Sound) (hlist : s.udpPacketList = list) (i : ℕ) :
    (AsyncUdpSocket.sendList outcomes i list s).2.Sound ∧ (AsyncUdpSocket.sendList outcomes i list s).2.given = s.given := by
  induction list generalizing s i with
  | nil => exact ⟨h, rfl⟩
  | cons packet list ih =>
    rw [AsyncUdpSocket.sendList]
    split
    · rename_i hneg
      refine ⟨h.pop hlist ?_, given_sendto packet _⟩
      intro hblock
      rw [sockSendTo_eq_zero.mpr hblock] at hneg
      exact absurd hneg (Int.lt_irrefl 0)
    · split
      · rename_i hzero
        rw [sockSendTo_eq_zero.mp hzero]
        exact ⟨h, rfl⟩
      · rename_i hneg hzero
        have hpop := h.pop hlist fun hblock => hzero (sockSendTo_eq_zero.mpr hblock)
        have ⟨hsound, hgiven⟩ := ih hpop rfl (i + 1)
        exact ⟨hsound, hgiven.trans (given_sendto packet _)⟩

/-- The loop sends every datagram, or stops at the first one that fails or has to wait. -/
theorem sendList_exit {list : List (UdpPacketData α)} (hlist : s.udpPacketList = list) (i : ℕ) :
    ((AsyncUdpSocket.sendList outcomes i list s).1 = .done ∧ (AsyncUdpSocket.sendList outcomes i list s).2.udpPacketList = [] ∧
        ∀ k packet, list[k]? = some packet → 0 < sockSendTo packet.size (outcomes (i + k))) ∨
      ∃ k packet, list[k]? = some packet ∧ (∀ j < k, ∀ p, list[j]? = some p → 0 < sockSendTo p.size (outcomes (i + j))) ∧
        ((AsyncUdpSocket.sendList outcomes i list s).1 = .failed ∧ sockSendTo packet.size (outcomes (i + k)) < 0 ∨
          (AsyncUdpSocket.sendList outcomes i list s).1 = .again ∧ sockSendTo packet.size (outcomes (i + k)) = 0) := by
  induction list generalizing s i with
  | nil => exact .inl ⟨rfl, hlist, fun k packet hk => nomatch hk⟩
  | cons packet list ih =>
    rw [AsyncUdpSocket.sendList]
    split
    · rename_i hneg
      exact .inr ⟨0, packet, rfl, fun j hj => absurd hj (Nat.not_lt_zero j), .inl ⟨rfl, hneg⟩⟩
    · split
      · rename_i hzero
        exact .inr ⟨0, packet, rfl, fun j hj => absurd hj (Nat.not_lt_zero j), .inr ⟨rfl, hzero⟩⟩
      · rename_i hneg hzero
        have hpos : 0 < sockSendTo packet.size (outcomes i) := by omega
        have hnext (k : ℕ) : i + (k + 1) = i + 1 + k := by omega
        rcases @ih { s.sendto packet (outcomes i) with udpPacketList := list } rfl (i + 1) with hdone | hstop
        · obtain ⟨hexit, hempty, hall⟩ := hdone
          refine .inl ⟨hexit, hempty, fun k p hk => ?_⟩
          cases k with
          | zero => exact Option.some.inj hk ▸ hpos
          | succ k => exact hnext k ▸ hall k p hk
        · obtain ⟨k, p, hk, hbefore, hexit⟩ := hstop
          refine .inr ⟨k + 1, p, hk, fun j hj q hq => ?_, hnext k ▸ hexit⟩
          cases j with
          | zero => exact Option.some.inj hq ▸ hpos
          | succ j => exact hnext j ▸ hbefore j (Nat.lt_of_succ_lt_succ hj) q hq

/-- What is sent before a datagram, in its turn. -/
theorem reaches_of_pos {list : List (UdpPacketData α)} {k : ℕ} (hk : k ≤ list.length)
    (h : ∀ j < k, ∀ p, list[j]? = some p → 0 < sockSendTo p.size (outcomes j)) : Reaches outcomes k := by
  intro j hj
  have hget := List.getElem?_eq_getElem (Nat.lt_of_lt_of_le hj hk)
  have hpos := h j hj _ hget
  exact eq_sent_of_pos (Int.not_lt.mpr (Int.le_of_lt hpos)) (Int.ne_of_gt hpos)

end Loop

section Calls
variable {s : AsyncUdpSocket α} {data : List UInt8} {addr : α} {outcomes : ℕ → Outcome}

/-- The books with a call that is answered. The other datagrams are where they were. -/
theorem Sound.answer (h : s.Sound) {t : AsyncUdpSocket α} {packet : UdpPacketData α} (hnumber : packet.number = s.given.length)
    (hfresh : packet ∉ s.given) (hgiven : t.given = s.given) (hreturned : t.returned = s.returned)
    (horder : (t.left ++ t.udpPacketList).Sublist (s.given ++ [packet]))
    (hsame : ∀ p ≠ packet, (p ∈ t.left ↔ p ∈ s.left) ∧ (p ∈ t.udpPacketList ↔ p ∈ s.udpPacketList) ∧ (p ∈ t.failed ↔ p ∈ s.failed))
    (hnew : packet ∉ t.left → packet ∉ t.udpPacketList → packet ∈ t.failed) {ret : ℤ}
    (hneg : ret < 0 → packet ∉ t.left ∧ packet ∉ t.udpPacketList) (hactive : t.udpPacketList ≠ [] → t.write = true) :
    (t.answer packet ret).Sound := by
  have hne {p} (hp : p ∈ s.given) : p ≠ packet := fun heq => hfresh (heq ▸ hp)
  refine { order := ?_, numbered := ?_, refused := ?_, dropped := ?_, negative := ?_, active := hactive }
  · rw [AsyncUdpSocket.answer, hgiven]
    exact horder
  · simp only [AsyncUdpSocket.answer, hgiven, List.map_append, h.numbered, List.map_cons, List.map_nil, hnumber,
      List.length_append, List.length_cons, List.length_nil, List.range_succ, Nat.zero_add]
  · intro p hp
    refine List.mem_append.mpr ?_
    by_cases heq : p = packet
    · exact .inr (List.mem_singleton.mpr heq)
    · exact .inl (hgiven ▸ h.refused p ((hsame p heq).2.2.mp hp))
  · intro p hp hleft hlist
    rcases List.mem_append.mp hp with hp | hp
    · have hp : p ∈ s.given := hgiven ▸ hp
      have ⟨hl, hw, hf⟩ := hsame p (hne hp)
      exact hf.mpr (h.dropped p hp (fun hmem => hleft (hl.mpr hmem)) fun hmem => hlist (hw.mpr hmem))
    · obtain rfl := List.mem_singleton.mp hp
      exact hnew hleft hlist
  · intro r hr
    rcases List.mem_append.mp hr with hr | hr
    · have ⟨hmem, hold⟩ := h.negative r (hreturned ▸ hr)
      have ⟨hl, hw, _⟩ := hsame r.1 (hne hmem)
      refine ⟨List.mem_append_left _ (hgiven ▸ hmem), fun hneg' => ?_⟩
      exact ⟨fun hleft => (hold hneg').1 (hl.mp hleft), fun hlist => (hold hneg').2 (hw.mp hlist)⟩
    · obtain rfl := List.mem_singleton.mp hr
      exact ⟨List.mem_append_right _ List.mem_cons_self, hneg⟩

theorem Sound.sendAgain (h : s.Sound) {packet : UdpPacketData α} (hnumber : packet.number = s.given.length)
    (hfresh : packet ∉ s.given) (hsize : 0 ≤ (packet.size : ℤ).bmod 4294967296) : (s.sendAgain packet).Sound := by
  refine h.answer hnumber hfresh ?_ ?_ ?_ ?_ ?_ ?_ ?_
  · rfl
  · rfl
  · simp only [← List.append_assoc]
    exact h.order.append_right [packet]
  · intro p hp
    simp [hp]
  · intro _ hlist
    simp at hlist
  · exact fun hneg => absurd hsize (Int.not_le.mpr hneg)
  · exact fun _ => rfl

/-- The list is empty, and the datagram itself was tried. -/
theorem Sound.tried (h : s.Sound) (hempty : s.udpPacketList = []) {packet : UdpPacketData α}
    (hnumber : packet.number = s.given.length) (hfresh : packet ∉ s.given) {outcome : Outcome} (hblock : outcome ≠ .wouldBlock)
    {ret : ℤ} (hret : outcome = .sent → 0 ≤ ret) : ((s.sendto packet outcome).answer packet ret).Sound := by
  have hleft : packet ∉ s.left := fun hmem => hfresh (h.order.subset (List.mem_append_left _ hmem))
  have horder := h.order
  rw [hempty, List.append_nil] at horder
  cases outcome with
  | sent =>
    refine h.answer hnumber hfresh ?_ ?_ ?_ ?_ ?_ ?_ ?_
    · rfl
    · rfl
    · simp only [sendto, hempty, List.append_nil]
      exact horder.append_right [packet]
    · intro p hp
      simp [sendto, hp]
    · intro hnot
      simp [sendto] at hnot
    · exact fun hneg => absurd (hret rfl) (Int.not_le.mpr hneg)
    · exact h.active
  | wouldBlock => exact absurd rfl hblock
  | error =>
    refine h.answer hnumber hfresh ?_ ?_ ?_ ?_ ?_ ?_ ?_
    · rfl
    · rfl
    · simp only [sendto, hempty, List.append_nil]
      exact horder.trans (List.sublist_append_left _ _)
    · intro p hp
      simp [sendto, hp]
    · intro _ _
      simp [sendto]
    · intro _
      simp [sendto, hempty, hleft]
    · exact h.active

/-- A call from which a datagram comes to nothing without an error of its own, or which denies
one that leaves or waits. -/
theorem not_orderly_answer {t : AsyncUdpSocket α} {packet : UdpPacketData α} {ret : ℤ} (hret : ret < 0)
    (hfailed : packet ∉ t.failed) : ¬ (t.answer packet ret).Orderly := by
  intro horderly
  have ⟨hleft, hlist⟩ := horderly.negative (packet, ret) (List.mem_append_right _ List.mem_cons_self) hret
  exact hfailed (horderly.dropped packet (List.mem_append_right _ List.mem_cons_self) hleft hlist)

/-- A call that puts its datagram into the list does not deny it. -/
theorem fits_of_orderly {packet : UdpPacketData α} (hfailed : packet ∉ s.failed) (h : (s.sendAgain packet).Orderly) :
    0 ≤ (packet.size : ℤ).bmod 4294967296 := by
  by_contra hlong
  have hnot : ¬ (s.sendAgain packet).Orderly := not_orderly_answer (Int.not_le.mp hlong) hfailed
  exact hnot h

/-- What a call comes to, by the way its loop over the list ends. -/
theorem Sound.sendTo (h : s.Sound) (data : List UInt8) (addr : α) (outcomes : ℕ → Outcome) :
    (s.Keeps (.sendTo data addr outcomes) → (s.step (.sendTo data addr outcomes)).Sound) ∧
      ((s.step (.sendTo data addr outcomes)).Orderly → s.Keeps (.sendTo data addr outcomes)) := by
  have hfresh := h.fresh data addr
  obtain ⟨hsound, hgiven⟩ := @Sound.sendList α s outcomes s.udpPacketList h rfl 0
  have hexit := @sendList_exit α s outcomes s.udpPacketList rfl 0
  rw [AsyncUdpSocket.step, addUdpPacket]
  generalize hpacket : (⟨data, addr, s.given.length⟩ : UdpPacketData α) = packet at hfresh ⊢
  have hsize : packet.size = data.length := by
    rw [← hpacket]
    rfl
  have hnumber : packet.number = s.given.length := by
    rw [← hpacket]
  generalize AsyncUdpSocket.sendList outcomes 0 s.udpPacketList s = result at hsound hgiven hexit ⊢
  obtain ⟨exit, s'⟩ := result
  dsimp only at hsound hgiven hexit
  rw [← hgiven] at hfresh hnumber
  have hnotFailed : packet ∉ s'.failed := fun hmem => hfresh (hsound.refused packet hmem)
  simp only [Nat.zero_add] at hexit
  rcases hexit with ⟨rfl, hempty, hall⟩ | ⟨k, p, hk, hbefore, ⟨rfl, hstop⟩ | ⟨rfl, hstop⟩⟩
  · have hreaches : Reaches outcomes s.udpPacketList.length :=
      reaches_of_pos (Nat.le_refl _) fun j _ p hp => hall j p hp
    have hkeeps : s.Keeps (.sendTo data addr outcomes) ↔ (outcomes s.udpPacketList.length = .sent → data ≠ []) ∧
        (outcomes s.udpPacketList.length = .wouldBlock → 0 ≤ (data.length : ℤ).bmod 4294967296) := by
      constructor
      · exact fun hkeeps => ⟨hkeeps.2.1 hreaches, fun hblock => hkeeps.2.2 (.inr hblock)⟩
      · rintro ⟨hnonempty, hfits⟩
        refine ⟨fun k p hp _ => Int.le_of_lt (hall k p hp), fun _ => hnonempty, fun hblock => hfits ?_⟩
        exact hblock.resolve_left (not_not.mpr hreaches)
    rw [hkeeps]
    dsimp only
    cases outcomes s.udpPacketList.length with
    | sent =>
      by_cases hdata : data = []
      · have hzero : packet.size = 0 := by
          rw [hsize, hdata]
          rfl
        refine ⟨fun hkeeps => absurd hdata (hkeeps.1 rfl), fun horderly => ?_⟩
        rw [hzero] at horderly
        exact absurd horderly (not_orderly_answer (by decide) hnotFailed)
      · have hpos : packet.size ≠ 0 := by
          rw [hsize]
          exact fun hzero => hdata (List.length_eq_zero_iff.mp hzero)
        have hsent : sockSendTo packet.size .sent = packet.size := if_neg hpos
        rw [hsent, if_neg (by omega), if_neg (by omega)]
        have htried := @Sound.tried α s' hsound hempty packet hnumber hfresh .sent (by decide) packet.size fun _ => by omega
        exact ⟨fun _ => htried, fun _ => ⟨fun _ => hdata, nofun⟩⟩
    | wouldBlock =>
      refine ⟨fun hkeeps => hsound.sendAgain hnumber hfresh (hsize ▸ hkeeps.2 rfl), fun horderly => ⟨nofun, fun _ => ?_⟩⟩
      exact hsize ▸ fits_of_orderly hnotFailed horderly
    | error =>
      have htried := @Sound.tried α s' hsound hempty packet hnumber hfresh .error (by decide) (-1) nofun
      exact ⟨fun _ => htried, fun _ => ⟨nofun, nofun⟩⟩
  · -- an older datagram fails, and the new one is not tried
    have hreaches : Reaches outcomes k := reaches_of_pos (List.getElem?_eq_some_iff.mp hk).1.le hbefore
    refine ⟨fun hkeeps => absurd (hkeeps.1 k p hk hreaches) (Int.not_le.mpr hstop), fun horderly => ?_⟩
    exact absurd horderly (not_orderly_answer (by decide) hnotFailed)
  · have hblock := sockSendTo_eq_zero.mp hstop
    have hlength := (List.getElem?_eq_some_iff.mp hk).1
    have hwaits : ¬ Reaches outcomes s.udpPacketList.length := by
      intro hreaches
      have hsent := hreaches k hlength
      rw [hblock] at hsent
      cases hsent
    refine ⟨fun hkeeps => hsound.sendAgain hnumber hfresh (hsize ▸ hkeeps.2.2 (.inl hwaits)), fun horderly => ?_⟩
    refine ⟨fun j q hq hreaches => ?_, fun hreaches => absurd hreaches hwaits, fun _ => hsize ▸ fits_of_orderly hnotFailed horderly⟩
    by_cases hj : j < k
    · exact Int.le_of_lt (hbefore j hj q hq)
    · rcases Nat.lt_or_eq_of_le (Nat.le_of_not_lt hj) with hj | rfl
      · have hsent := hreaches k hj
        rw [hblock] at hsent
        cases hsent
      · exact Int.le_of_eq (sockSendTo_eq_zero.mpr hblock).symm

theorem Sound.sendData (h : s.Sound) (outcomes : ℕ → Outcome) : (s.sendData outcomes).Sound := by
  obtain ⟨hsound, -⟩ := @Sound.sendList α s outcomes s.udpPacketList h rfl 0
  have hexit := @sendList_exit α s outcomes s.udpPacketList rfl 0
  rw [AsyncUdpSocket.sendData]
  generalize AsyncUdpSocket.sendList outcomes 0 s.udpPacketList s = result at hsound hexit ⊢
  obtain ⟨exit, s'⟩ := result
  dsimp only at hsound hexit
  cases exit with
  | done =>
    have hempty : s'.udpPacketList = [] := by
      rcases hexit with ⟨-, hempty, -⟩ | ⟨k, p, -, -, ⟨hno, -⟩ | ⟨hno, -⟩⟩
      · exact hempty
      · cases hno
      · cases hno
    exact { hsound with active := fun hlist => absurd hempty hlist }
  | failed => exact hsound
  | again => exact hsound

end Calls

section Run
variable {s : AsyncUdpSocket α}

theorem sound_start : ({} : AsyncUdpSocket α).Sound where
  order := List.Sublist.refl _
  numbered := rfl
  refused := nofun
  dropped := nofun
  negative := nofun
  active := fun hlist => absurd rfl hlist

theorem Sound.step (h : s.Sound) (e : Event α) (hkeeps : s.Keeps e) : (s.step e).Sound := by
  cases e with
  | sendTo data addr outcomes => exact (h.sendTo data addr outcomes).1 hkeeps
  | writable outcomes =>
    rw [AsyncUdpSocket.step]
    split
    · exact h.sendData outcomes
    · exact h

theorem Sound.orderly_step_iff (h : s.Sound) (e : Event α) : (s.step e).Orderly ↔ s.Keeps e := by
  refine ⟨fun horderly => ?_, fun hkeeps => (h.step e hkeeps).orderly⟩
  cases e with
  | sendTo data addr outcomes => exact (h.sendTo data addr outcomes).2 horderly
  | writable outcomes => trivial

/-- Along a run the socket is orderly exactly if its calls meet no failure of an older datagram,
send no empty one, and put none into the list that is too long for an `int`. -/
theorem orderly_iff_keeps (es : List (Event α)) :
    Runs.AllAfter step Orderly {} es ↔ Runs.Along step Keeps {} es :=
  Runs.along_iff (fun _ e hs he => hs.step e he) (fun _ e hs => hs.orderly_step_iff e) sound_start es

/-- The first datagram has to wait, and fails when the second one is sent. -/
def lostSecond : List (Event ℕ) := [.sendTo [1] 0 fun _ => .wouldBlock, .sendTo [2] 0 fun _ => .error]

theorem lostSecond_not_orderly : ¬ Runs.AllAfter step Orderly {} lostSecond := by
  intro h
  have hdropped := h.2.1.dropped ⟨[2], 0, 1⟩
  revert hdropped
  decide

end Run

end AsyncUdpSocket

end Udp
end XrtcServer
