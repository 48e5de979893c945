import XrtcServer.Loops
import Mathlib.Algebra.BigOperators.Group.List.Basic
import Mathlib.Tactic.Linarith
import Mathlib.Tactic.Ring

/-! The split of a payload into packets of about one size. -/
namespace XrtcServer
namespace RtpFormat

/-- Four ints of the source, none of them negative. -/
structure PayloadLimits where
  maxPayloadLen : ℕ := 1200
  singlePacketReductionLen : ℕ := 0
  firstPacketReductionLen : ℕ := 0
  lastPacketReductionLen : ℕ := 0
  deriving DecidableEq, Repr

/-- `int remain_data = payload_size`; a negative value ends the loop as zero does. -/
def remainOf (payloadSize : ℕ) : ℕ :=
  if payloadSize % 2^32 < 2^31 then payloadSize % 2^32 else 0

theorem remainOf_lt (n : ℕ) : remainOf n < 2^31 := by
  simp only [remainOf]
  by_cases h : n % 2^32 < 2^31
  · rwa [if_pos h]
  · rw [if_neg h]
    omega

theorem remainOf_add_le {n : ℕ} (h : 2^31 ≤ n) : remainOf n + 2^31 ≤ n := by
  simp only [remainOf]
  by_cases hlt : n % 2^32 < 2^31
  · rw [if_pos hlt]
    omega
  · rw [if_neg hlt]
    omega

theorem remainOf_pos_le {n : ℕ} (h : 0 < remainOf n) : n < 2^31 ∨ 2^32 < n := by
  simp only [remainOf] at h
  by_cases hlt : n % 2^32 < 2^31
  · rw [if_pos hlt] at h
    omega
  · rw [if_neg hlt] at h
    omega

structure SplitState where
  remainData : ℕ
  numPacketsLeft : ℕ
  bytesPerPacket : ℕ
  firstPacket : Bool := true
  result : List ℕ := []

/-- The size of the next packet, where `bytesPerPacket` is what a packet gets now. -/
def currentPacketBytes (limits : PayloadLimits) (s : SplitState) (bytesPerPacket : ℕ) : ℕ :=
  let current :=
    if s.firstPacket then
      if bytesPerPacket - limits.firstPacketReductionLen > 1 then bytesPerPacket - limits.firstPacketReductionLen
      else 1
    else bytesPerPacket
  let current := if current > s.remainData then s.remainData else current
  -- the last packet is left with something
  if s.numPacketsLeft = 2 ∧ current = s.remainData then current - 1 else current

/-- The packets that are left get one byte more once they are `numLargerPacket`. -/
def SplitState.nextBytes (s : SplitState) (numLargerPacket : ℕ) : ℕ :=
  if s.numPacketsLeft = numLargerPacket then s.bytesPerPacket + 1 else s.bytesPerPacket

/-- One round of the loop. -/
def splitBody (limits : PayloadLimits) (numLargerPacket : ℕ) (s : SplitState) : List ℕ ⊕ SplitState :=
  if s.remainData > 0 then
    let bytesPerPacket := s.nextBytes numLargerPacket
    let current := currentPacketBytes limits s bytesPerPacket
    .inr
      { remainData := s.remainData - current
        numPacketsLeft := s.numPacketsLeft - 1
        bytesPerPacket
        firstPacket := false
        result := s.result ++ [current] }
  else .inl s.result

def totalBytes (payloadSize : ℕ) (limits : PayloadLimits) : ℕ :=
  payloadSize + limits.firstPacketReductionLen + limits.lastPacketReductionLen

def numPackets (payloadSize : ℕ) (limits : PayloadLimits) : ℕ :=
  let numPacketsLeft :=
    (totalBytes payloadSize limits + limits.maxPayloadLen - 1) / limits.maxPayloadLen
  if numPacketsLeft = 1 then 2 else numPacketsLeft

/-- The loop of `SplitAboutEqual` and the values that it starts from. -/
def splitLoop (payloadSize : ℕ) (limits : PayloadLimits) : Option (List ℕ) :=
  let total := totalBytes payloadSize limits
  let num := numPackets payloadSize limits
  Loops.result (splitBody limits (total % num))
    { remainData := remainOf payloadSize, numPacketsLeft := num, bytesPerPacket := total / num }

def splitAboutEqual (payloadSize : ℕ) (limits : PayloadLimits) : Option (List ℕ) :=
  if limits.maxPayloadLen ≥ payloadSize + limits.singlePacketReductionLen then some [payloadSize]
  else if limits.maxPayloadLen - limits.firstPacketReductionLen < 1 ∨
      limits.maxPayloadLen - limits.lastPacketReductionLen < 1 then some []
  else splitLoop payloadSize limits

theorem splitBody_pos {limits : PayloadLimits} {larger : ℕ} {s : SplitState} (h : 0 < s.remainData) :
    splitBody limits larger s = .inr
      { remainData := s.remainData - currentPacketBytes limits s (s.nextBytes larger)
        numPacketsLeft := s.numPacketsLeft - 1
        bytesPerPacket := s.nextBytes larger
        firstPacket := false
        result := s.result ++ [currentPacketBytes limits s (s.nextBytes larger)] } := by
  simp only [splitBody]
  rw [if_pos h]

/-- Sizes for `n` bytes, none above `cap` and the last one not above `lastCap`. -/
structure SizesFit (cap lastCap n : ℕ) (sizes : List ℕ) : Prop where
  ne_nil : sizes ≠ []
  pos : ∀ s ∈ sizes, 1 ≤ s
  sum : sizes.sum = n
  le_cap : ∀ s ∈ sizes, s ≤ cap
  last_le : ∀ s ∈ sizes.getLast?, s ≤ lastCap

theorem SizesFit.singleton {cap lastCap n : ℕ} (h₁ : 1 ≤ n) (h₂ : n ≤ cap) (h₃ : n ≤ lastCap) :
    SizesFit cap lastCap n [n] where
  ne_nil := by simp
  pos := by simp [h₁]
  sum := by simp
  le_cap := by simp [h₂]
  last_le := by simp [h₃]

theorem SizesFit.cons {cap lastCap n c : ℕ} {sizes : List ℕ} (h : SizesFit cap lastCap n sizes)
    (h₁ : 1 ≤ c) (h₂ : c ≤ cap) : SizesFit cap lastCap (c + n) (c :: sizes) where
  ne_nil := by simp
  pos := by simpa [h₁] using h.pos
  sum := by simp [h.sum]
  le_cap := by simpa [h₂] using h.le_cap
  last_le s hs := h.last_le s (by rwa [List.getLast?_cons_of_ne_nil h.ne_nil] at hs)

section Tail
variable (limits : PayloadLimits) (b larger : ℕ)

/-- What a packet gets when `m` packets are left. -/
def slot (m : ℕ) : ℕ := if m ≤ larger then b + 1 else b

/-- What the last `m` packets get together. -/
def share (m : ℕ) : ℕ := m * b + min m larger

theorem share_succ (m : ℕ) : share b larger (m+1) = share b larger m + slot b larger (m+1) := by
  simp only [share, slot]
  split
  · rename_i h
    rw [Nat.min_eq_left h, Nat.min_eq_left (by omega)]
    ring
  · rename_i h
    rw [Nat.min_eq_right (by omega), Nat.min_eq_right (by omega)]
    ring

@[simp] theorem share_one : share b larger 1 = slot b larger 1 := by
  simp only [share, slot]
  split <;> omega

theorem slot_le (m : ℕ) : slot b larger (m+1) ≤ slot b larger 1 := by
  simp only [slot]
  split <;> split <;> omega

/-- The loop after the first packet, with `m` packets left. -/
def tailState (m remain : ℕ) (sizes : List ℕ) : SplitState where
  remainData := remain
  numPacketsLeft := m
  bytesPerPacket := slot b larger (m+1)
  firstPacket := false
  result := sizes

/-- A packet after the first one: its slot, or what is left, less one byte when it is the
last but one. -/
def tailBytes (m remain : ℕ) : ℕ :=
  if m = 2 ∧ remain ≤ slot b larger m then remain - 1 else min (slot b larger m) remain

theorem splitBody_tail {m remain : ℕ} (h : 0 < remain) (sizes : List ℕ) :
    splitBody limits larger (tailState b larger (m+1) remain sizes) =
      .inr (tailState b larger m (remain - tailBytes b larger (m+1) remain)
        (sizes ++ [tailBytes b larger (m+1) remain])) := by
  have hbytes : (if m + 1 = larger then slot b larger (m+2) + 1 else slot b larger (m+2)) =
      slot b larger (m+1) := by
    simp only [slot]
    split <;> split <;> split <;> omega
  have hcurrent : currentPacketBytes limits (tailState b larger (m+1) remain sizes) (slot b larger (m+1)) =
      tailBytes b larger (m+1) remain := by
    simp only [currentPacketBytes, tailState, tailBytes, Bool.false_eq_true, if_false]
    grind
  have hnext : (tailState b larger (m+1) remain sizes).nextBytes larger = slot b larger (m+1) := hbytes
  rw [splitBody_pos (show 0 < (tailState b larger (m+1) remain sizes).remainData from h), hnext, hcurrent]
  rfl

theorem splitBody_done (m : ℕ) (sizes : List ℕ) :
    splitBody limits larger (tailState b larger m 0 sizes) = .inl sizes := by
  simp [splitBody, tailState]

theorem last_result {remain : ℕ} (h₁ : 1 ≤ remain) (h₂ : remain ≤ slot b larger 1) (sizes : List ℕ) :
    Loops.result (splitBody limits larger) (tailState b larger 1 remain sizes) =
      some (sizes ++ [remain]) := by
  have hbytes : tailBytes b larger 1 remain = remain := by
    simp [tailBytes, h₂]
  rw [Loops.result_again (splitBody_tail limits b larger h₁ sizes), hbytes, Nat.sub_self,
    Loops.result_leave (splitBody_done limits b larger 0 _)]

theorem share_two_le {m : ℕ} (h : 2 ≤ m) : share b larger 2 ≤ share b larger m := by
  induction m, h using Nat.le_induction with
  | base => rfl
  | succ m _ ih =>
    rw [share_succ b larger m]
    omega

/-- With a byte to spare for each of the last two packets, every packet from here on is
sent: the `deficit` is what the last packet stays below its slot. -/
theorem tail_result {cap lastCap deficit m remain : ℕ} (hb : 1 ≤ b) (hcap : slot b larger 1 ≤ cap)
    (hroom : deficit + 2 ≤ share b larger 2) (h₁ : 1 ≤ lastCap) (h₂ : slot b larger 1 - deficit ≤ lastCap)
    (hm : 2 ≤ m) (hremain : remain + deficit = share b larger m) (sizes : List ℕ) :
    ∃ rest, Loops.result (splitBody limits larger) (tailState b larger m remain sizes) = some (sizes ++ rest) ∧
      rest.length = m ∧ SizesFit cap lastCap remain rest := by
  induction m, hm using Nat.le_induction generalizing remain sizes with
  | base =>
    have hsum : share b larger 2 = slot b larger 1 + slot b larger 2 := by
      rw [share_succ b larger 1, share_one]
    have hslot : b ≤ slot b larger 2 ∧ slot b larger 2 ≤ slot b larger 1 :=
      ⟨by simp only [slot]; split <;> omega, slot_le b larger 1⟩
    obtain ⟨c, hc⟩ : ∃ c, c = tailBytes b larger 2 remain := ⟨_, rfl⟩
    have hbounds : 1 ≤ c ∧ c ≤ slot b larger 2 ∧ 1 ≤ remain - c ∧ remain - c ≤ slot b larger 1 ∧
        remain - c ≤ lastCap ∧ c ≤ remain := by
      rw [tailBytes] at hc
      grind
    refine ⟨[c, remain - c], ?_, rfl, ?_⟩
    · rw [Loops.result_again (splitBody_tail limits b larger (by omega) sizes), ← hc,
        last_result limits b larger (by omega) (by omega)]
      simp
    · have hfit : SizesFit cap lastCap (c + (remain - c)) [c, remain - c] :=
        (SizesFit.singleton (by omega) (by omega) (by omega)).cons (by omega) (by omega)
      rwa [show c + (remain - c) = remain by omega] at hfit
  | succ m hm ih =>
    have hsum := share_succ b larger m
    have hle := share_two_le b larger hm
    have hslot : b ≤ slot b larger (m+1) := by
      simp only [slot]
      split <;> omega
    have hbytes : tailBytes b larger (m+1) remain = slot b larger (m+1) := by
      rw [tailBytes, if_neg (by omega), Nat.min_eq_left (by omega)]
    have hrest : remain - slot b larger (m+1) + deficit = share b larger m := by omega
    obtain ⟨rest, hresult, hlen, hfit⟩ := ih hrest (sizes ++ [slot b larger (m+1)])
    refine ⟨slot b larger (m+1) :: rest, ?_, by simp [hlen], ?_⟩
    · rw [Loops.result_again (splitBody_tail limits b larger (by omega) sizes), hbytes, hresult]
      simp
    · have hcons := hfit.cons (show 1 ≤ slot b larger (m+1) by omega) ((slot_le b larger m).trans hcap)
      rwa [show slot b larger (m+1) + (remain - slot b larger (m+1)) = remain by omega] at hcons

end Tail

section Room
variable {cap b larger k : ℕ}

/-- With three packets or more the average fills so much of a packet that the last two
together hold more than one. -/
theorem cap_lt_share_two (hlarger : larger < k + 3) (htotal : (k+2)*cap < (k+3)*b + larger) :
    cap < share b larger 2 := by
  by_contra hle
  have hmul : (k+2) * (2*b + min 2 larger) ≤ (k+2) * cap := Nat.mul_le_mul_left _ (by
    simpa only [share] using not_lt.mp hle)
  have hexp : (k+2) * (2*b + min 2 larger) + k*b = (k+3)*b + 2*(k*b) + b + (k+2) * min 2 larger := by ring
  rcases Nat.lt_or_ge larger 2 with hlt | hge
  · obtain rfl | rfl : larger = 0 ∨ larger = 1 := by omega
    all_goals
      simp only [Nat.min_eq_right, Nat.zero_le, Nat.one_le_ofNat] at hmul hexp
      omega
  · rw [Nat.min_eq_left hge] at hmul hexp
    omega

/-- The same for a first packet that takes less than its slot. -/
theorem two_cap_lt_share (hlarger : larger < k + 3) (htotal : (k+2)*cap < (k+3)*b + larger) :
    2*cap < b + share b larger 2 := by
  by_contra hle
  have hmul : (k+2) * (3*b + min 2 larger) ≤ (k+2) * (2*cap) := Nat.mul_le_mul_left _ (by
    simp only [share, not_lt] at hle
    omega)
  have hexp : (k+2) * (3*b + min 2 larger) = 2*((k+3)*b) + k*b + (k+2) * min 2 larger := by ring
  have htwo : (k+2) * (2*cap) = 2*((k+2)*cap) := by ring
  rcases Nat.lt_or_ge larger 2 with hlt | hge
  · obtain rfl | rfl : larger = 0 ∨ larger = 1 := by omega
    all_goals
      simp only [Nat.min_eq_right, Nat.zero_le, Nat.one_le_ofNat] at hmul hexp
      omega
  · rw [Nat.min_eq_left hge] at hmul hexp
    omega

end Room

/-- A split of `n` bytes into two packets or more that keeps every limit. -/
structure Split (limits : PayloadLimits) (n : ℕ) (sizes : List ℕ) : Prop where
  two_le : 2 ≤ sizes.length
  fits : SizesFit limits.maxPayloadLen (limits.maxPayloadLen - limits.lastPacketReductionLen) n sizes
  first_le : ∀ s ∈ sizes.head?, s ≤ limits.maxPayloadLen - limits.firstPacketReductionLen

section Split
variable {limits : PayloadLimits} {n : ℕ}

theorem two_le_numPackets (hn : 1 ≤ n) (hmax : 0 < limits.maxPayloadLen) : 2 ≤ numPackets n limits := by
  have hpos : 0 < (totalBytes n limits + limits.maxPayloadLen - 1) / limits.maxPayloadLen :=
    Nat.div_pos (by simp only [totalBytes]; omega) hmax
  simp only [numPackets]
  split <;> omega

/-- The packets hold everything. -/
theorem totalBytes_le (hn : 1 ≤ n) (hmax : 0 < limits.maxPayloadLen) :
    totalBytes n limits ≤ numPackets n limits * limits.maxPayloadLen := by
  have htotal : 1 ≤ totalBytes n limits := by
    simp only [totalBytes]
    omega
  have hdiv := Nat.lt_div_mul_add hmax (a := totalBytes n limits + limits.maxPayloadLen - 1)
  simp only [numPackets]
  split
  · rename_i h
    rw [h] at hdiv
    omega
  · omega

/-- With three packets or more, one packet less would not hold everything. -/
theorem lt_totalBytes (h : 3 ≤ numPackets n limits) :
    (numPackets n limits - 1) * limits.maxPayloadLen < totalBytes n limits := by
  have hdiv := Nat.div_mul_le_self (totalBytes n limits + limits.maxPayloadLen - 1) limits.maxPayloadLen
  have hnum : numPackets n limits =
      (totalBytes n limits + limits.maxPayloadLen - 1) / limits.maxPayloadLen := by
    simp only [numPackets] at h ⊢
    split at h <;> rename_i hone
    · omega
    · rw [if_neg hone]
  have hmax : 0 < limits.maxPayloadLen := by
    by_contra h₀
    simp [hnum, Nat.eq_zero_of_not_pos h₀] at h
  rw [hnum] at h ⊢
  have hpos : limits.maxPayloadLen ≤
      (totalBytes n limits + limits.maxPayloadLen - 1) / limits.maxPayloadLen * limits.maxPayloadLen :=
    Nat.le_mul_of_pos_left _ (by omega)
  rw [Nat.sub_mul]
  omega

theorem numPackets_le (hn : 2 ≤ n) (hmax : 0 < limits.maxPayloadLen) :
    numPackets n limits ≤ totalBytes n limits := by
  rcases Nat.lt_or_ge (numPackets n limits) 3 with hlt | hge
  · simp only [totalBytes]
    omega
  · have hlt := lt_totalBytes hge
    have hle : numPackets n limits - 1 ≤ (numPackets n limits - 1) * limits.maxPayloadLen :=
      Nat.le_mul_of_pos_right _ hmax
    omega

theorem slot_le_max (hn : 2 ≤ n) (hmax : 0 < limits.maxPayloadLen) :
    slot (totalBytes n limits / numPackets n limits) (totalBytes n limits % numPackets n limits) 1 ≤
      limits.maxPayloadLen := by
  have htotal := totalBytes_le (show 1 ≤ n by omega) hmax
  have hdiv := Nat.div_add_mod (totalBytes n limits) (numPackets n limits)
  have hnum := two_le_numPackets (show 1 ≤ n by omega) hmax
  simp only [slot]
  split
  · refine Nat.lt_of_mul_lt_mul_left (a := numPackets n limits) ?_
    omega
  · refine Nat.le_of_mul_le_mul_left (c := numPackets n limits) ?_ (by omega)
    omega

/-- The first packet: its slot less the reduction, but one byte at least. -/
def firstBytes (limits : PayloadLimits) (b : ℕ) : ℕ := max (b - limits.firstPacketReductionLen) 1

theorem splitBody_first (limits : PayloadLimits) (b : ℕ) {larger num : ℕ} (hn : 0 < n) (hlarger : larger < num) :
    ∃ c, c = (if num = 2 ∧ n ≤ firstBytes limits b then n - 1 else min (firstBytes limits b) n) ∧
      splitBody limits larger { remainData := n, numPacketsLeft := num, bytesPerPacket := b } =
        .inr (tailState b larger (num - 1) (n - c) [c]) := by
  obtain ⟨s, hs⟩ : ∃ s : SplitState, s = { remainData := n, numPacketsLeft := num, bytesPerPacket := b } :=
    ⟨_, rfl⟩
  have hnext : s.nextBytes larger = b := by
    simp only [SplitState.nextBytes, hs]
    rw [if_neg (by omega)]
  have hslot : slot b larger (num - 1 + 1) = b := by
    simp only [slot]
    rw [if_neg (by omega)]
  have hcurrent : currentPacketBytes limits s b =
      if num = 2 ∧ n ≤ firstBytes limits b then n - 1 else min (firstBytes limits b) n := by
    simp only [currentPacketBytes, hs, if_true, firstBytes]
    grind
  have hbody := @splitBody_pos limits larger s (by simpa [hs] using hn)
  rw [hnext, hcurrent] at hbody
  refine ⟨_, rfl, ?_⟩
  rw [← hs, hbody, tailState, hslot]
  simp [hs]

/-- The loop sends all the packets that it counted, each within its limit. -/
theorem splitLoop_eq (hn : 2 ≤ n) (hint : n < 2^31)
    (hfirst : limits.firstPacketReductionLen < limits.maxPayloadLen)
    (hlast : limits.lastPacketReductionLen < limits.maxPayloadLen) :
    ∃ sizes, splitLoop n limits = some sizes ∧ sizes.length = numPackets n limits ∧ Split limits n sizes := by
  have hmax : 0 < limits.maxPayloadLen := by omega
  have hnum := two_le_numPackets (show 1 ≤ n by omega) hmax
  have hcap := slot_le_max hn hmax
  have hdiv := Nat.div_add_mod (totalBytes n limits) (numPackets n limits)
  have hlt := Nat.mod_lt (totalBytes n limits) (show 0 < numPackets n limits by omega)
  have hb : 1 ≤ totalBytes n limits / numPackets n limits := Nat.div_pos (numPackets_le hn hmax) (by omega)
  have hremain : remainOf n = n := by
    rw [remainOf, Nat.mod_eq_of_lt (by omega), if_pos hint]
  simp only [splitLoop, hremain]
  generalize hbdef : totalBytes n limits / numPackets n limits = b at *
  generalize hldef : totalBytes n limits % numPackets n limits = larger at *
  have htotal : totalBytes n limits =
      n + limits.firstPacketReductionLen + limits.lastPacketReductionLen := rfl
  have hbmax : b ≤ limits.maxPayloadLen := by
    simp only [slot] at hcap
    split at hcap <;> omega
  obtain ⟨c, hc, hbody⟩ := splitBody_first limits b (show 0 < n by omega) hlt
  rw [Loops.result_again hbody]
  have hfb : firstBytes limits b = max (b - limits.firstPacketReductionLen) 1 := rfl
  rcases Nat.lt_or_ge (numPackets n limits) 3 with hlt3 | hge3
  · have htwo : numPackets n limits = 2 := by omega
    rw [htwo] at hc hdiv hlt ⊢
    have hslot : slot b larger 1 = b + larger := by
      simp only [slot]
      split <;> omega
    have hrest : 1 ≤ c ∧ c ≤ limits.maxPayloadLen - limits.firstPacketReductionLen ∧ 1 ≤ n - c ∧
        n - c ≤ slot b larger 1 ∧ n - c ≤ limits.maxPayloadLen - limits.lastPacketReductionLen := by
      grind
    refine ⟨[c, n - c], ?_, rfl, by simp, ?_, by simpa using hrest.2.1⟩
    · rw [last_result limits b larger (by omega) (by omega)]
      rfl
    · have hfit : SizesFit limits.maxPayloadLen (limits.maxPayloadLen - limits.lastPacketReductionLen)
          (c + (n - c)) [c, n - c] :=
        (SizesFit.singleton (by omega) (by omega) (by omega)).cons (by omega) (by omega)
      rwa [show c + (n - c) = n by omega] at hfit
  · obtain ⟨k, hk⟩ : ∃ k, numPackets n limits = k + 3 := ⟨numPackets n limits - 3, by omega⟩
    have hlower := lt_totalBytes hge3
    rw [hk] at hc hdiv hlt hlower ⊢
    have hlower : (k+2) * limits.maxPayloadLen < (k+3) * b + larger := by
      simpa [hdiv] using hlower
    have hone := cap_lt_share_two hlt hlower
    have htwo := two_cap_lt_share hlt hlower
    have hshare : share b larger (k+2) + b = totalBytes n limits := by
      have hs : share b larger (k+3) = share b larger (k+2) + slot b larger (k+3) :=
        share_succ b larger (k+2)
      have hslot : slot b larger (k+3) = b := if_neg (by omega)
      have hall : share b larger (k+3) = (k+3)*b + larger := by
        rw [share, Nat.min_eq_right (by omega)]
      omega
    have hmono := share_two_le b larger (show 2 ≤ k + 2 by omega)
    have hcfb : c = firstBytes limits b := by
      rw [hc, if_neg (by omega), Nat.min_eq_left (by omega)]
    obtain ⟨deficit, hdeficit⟩ : ∃ d, d = limits.lastPacketReductionLen +
      (c + limits.firstPacketReductionLen - b) := ⟨_, rfl⟩
    have hrest : n - c + deficit = share b larger (k+2) := by omega
    have hlastCap : slot b larger 1 - deficit ≤ limits.maxPayloadLen - limits.lastPacketReductionLen := by
      omega
    obtain ⟨rest, hresult, hlen, hfit⟩ := tail_result limits b larger hb hcap (by omega) (by omega)
      hlastCap (by omega) hrest [c]
    refine ⟨c :: rest, hresult, by simp [hlen], by simp [hlen], ?_, by simp; omega⟩
    have hcons := hfit.cons (show 1 ≤ c by omega) (by omega)
    rwa [show c + (n - c) = n by omega] at hcons

/-- Nothing is split when the conversion to int leaves nothing. -/
theorem splitLoop_zero (h : remainOf n = 0) : splitLoop n limits = some [] := by
  simp only [splitLoop, h]
  rw [Loops.result_leave]
  simp [splitBody]

theorem currentPacketBytes_le (limits : PayloadLimits) (s : SplitState) (b : ℕ) :
    currentPacketBytes limits s b ≤ s.remainData := by
  simp only [currentPacketBytes]
  grind

theorem currentPacketBytes_pos (limits : PayloadLimits) {s : SplitState} {b : ℕ} (hs : 0 < s.remainData) (hb : 1 ≤ b)
    (hleft : s.numPacketsLeft ≠ 2) : 1 ≤ currentPacketBytes limits s b := by
  simp only [currentPacketBytes, hleft, false_and, if_false]
  grind

/-- The loop always ends, and has then split what the conversion to int has left. -/
theorem splitLoop_sum (hn : 2 ≤ n) (hmax : 0 < limits.maxPayloadLen) :
    ∃ sizes, splitLoop n limits = some sizes ∧ sizes.sum = remainOf n := by
  have hnum := two_le_numPackets (show 1 ≤ n by omega) hmax
  have hb : 1 ≤ totalBytes n limits / numPackets n limits := Nat.div_pos (numPackets_le hn hmax) (by omega)
  have hstep : ∀ s s', (1 ≤ s.bytesPerPacket ∧ s.result.sum + s.remainData = remainOf n) →
      splitBody limits (totalBytes n limits % numPackets n limits) s = .inr s' →
      (1 ≤ s'.bytesPerPacket ∧ s'.result.sum + s'.remainData = remainOf n) ∧
        s'.remainData + s'.numPacketsLeft < s.remainData + s.numPacketsLeft := by
    rintro s s' ⟨hbytes, hsum⟩ hbody
    by_cases hs : 0 < s.remainData
    · rw [splitBody_pos hs] at hbody
      obtain rfl := Sum.inr.inj hbody
      have hnext : 1 ≤ s.nextBytes (totalBytes n limits % numPackets n limits) := by
        simp only [SplitState.nextBytes]
        split <;> omega
      have hle := currentPacketBytes_le limits s
        (s.nextBytes (totalBytes n limits % numPackets n limits))
      have hpos := currentPacketBytes_pos limits hs hnext
      refine ⟨⟨hnext, ?_⟩, ?_⟩
      · simp only [List.sum_append, List.sum_singleton]
        omega
      · dsimp only
        by_cases hleft : s.numPacketsLeft = 2
        · omega
        · have := hpos hleft
          omega
    · simp [splitBody, hs] at hbody
  obtain ⟨s₀, hs₀⟩ : ∃ s₀ : SplitState,
      s₀ = ⟨remainOf n, numPackets n limits, totalBytes n limits / numPackets n limits, true, []⟩ := ⟨_, rfl⟩
  have hstart : 1 ≤ s₀.bytesPerPacket ∧ s₀.result.sum + s₀.remainData = remainOf n := by
    simpa [hs₀] using hb
  obtain ⟨sizes, hsizes⟩ := Loops.exists_result
    (fun s : SplitState => s.remainData + s.numPacketsLeft) hstep hstart
  refine ⟨sizes, by rw [hs₀] at hsizes; exact hsizes, ?_⟩
  refine Loops.result_post (Q := fun sizes => sizes.sum = remainOf n)
    (fun s s' hs hbody => (hstep s s' hs hbody).1) ?_ hstart hsizes
  intro s sizes hs hbody
  by_cases hpos : 0 < s.remainData
  · rw [splitBody_pos hpos] at hbody
    cases hbody
  · simp only [splitBody, gt_iff_lt, hpos, if_false, Sum.inl.injEq] at hbody
    rw [← hbody]
    omega

/-- Sizes for `n` bytes that keep the limits of packets in these places. A payload lies in memory,
so that no sum of its size and the limits wraps around. -/
structure Allotted (limits : PayloadLimits) (n : ℕ) (sizes : List ℕ) : Prop where
  pos : ∀ s ∈ sizes, 1 ≤ s
  sum : sizes.sum = n
  le_max : ∀ s ∈ sizes, s ≤ limits.maxPayloadLen
  several : 2 ≤ sizes.length → (∀ s ∈ sizes.head?, s ≤ limits.maxPayloadLen - limits.firstPacketReductionLen) ∧
    ∀ s ∈ sizes.getLast?, s ≤ limits.maxPayloadLen - limits.lastPacketReductionLen
  single : sizes.length = 1 → ∀ s ∈ sizes, s ≤ limits.maxPayloadLen - limits.singlePacketReductionLen

/-- The first and the last packet keep their limits also if they are the same. -/
structure AllottedAlone (limits : PayloadLimits) (n : ℕ) (sizes : List ℕ) : Prop extends Allotted limits n sizes where
  first : ∀ s ∈ sizes.head?, s ≤ limits.maxPayloadLen - limits.firstPacketReductionLen
  last : ∀ s ∈ sizes.getLast?, s ≤ limits.maxPayloadLen - limits.lastPacketReductionLen

/-- The call returns nothing, or sizes with the property. -/
def Returns (limits : PayloadLimits) (n : ℕ) (P : List ℕ → Prop) : Prop :=
  ∃ sizes, splitAboutEqual n limits = some sizes ∧ (sizes = [] ∨ P sizes)

section Whole

theorem Split.allotted {sizes : List ℕ} (h : Split limits n sizes) : AllottedAlone limits n sizes where
  pos := h.fits.pos
  sum := h.fits.sum
  le_max := h.fits.le_cap
  several := fun _ => ⟨h.first_le, h.fits.last_le⟩
  single := fun hone => absurd h.two_le (by omega)
  first := h.first_le
  last := h.fits.last_le

theorem splitAboutEqual_single (h : n + limits.singlePacketReductionLen ≤ limits.maxPayloadLen) : splitAboutEqual n limits = some [n] :=
  if_pos h

theorem allotted_single (hn : 1 ≤ n) (h : n + limits.singlePacketReductionLen ≤ limits.maxPayloadLen) : Allotted limits n [n] where
  pos := by simpa using hn
  sum := List.sum_singleton
  le_max := by
    simp only [List.mem_singleton, forall_eq]
    omega
  several := by
    intro htwo
    simp at htwo
  single := by
    simp only [List.mem_singleton, forall_eq]
    omega

theorem splitAboutEqual_several (h : ¬ n + limits.singlePacketReductionLen ≤ limits.maxPayloadLen)
    (hfirst : limits.firstPacketReductionLen < limits.maxPayloadLen) (hlast : limits.lastPacketReductionLen < limits.maxPayloadLen) :
    splitAboutEqual n limits = splitLoop n limits := by
  rw [splitAboutEqual, if_neg h, if_neg (by omega)]

/-- A payload whose size is an `int` is split in the loop. -/
theorem returns_of_int (hn : 1 ≤ n) (hint : n < 2^31) (h : ¬ n + limits.singlePacketReductionLen ≤ limits.maxPayloadLen)
    (hfirst : limits.firstPacketReductionLen < limits.maxPayloadLen) (hlast : limits.lastPacketReductionLen < limits.maxPayloadLen)
    (hsingle : limits.singlePacketReductionLen < limits.maxPayloadLen) : Returns limits n (AllottedAlone limits n) := by
  obtain ⟨sizes, hloop, -, hsplit⟩ := splitLoop_eq (show 2 ≤ n by omega) hint hfirst hlast
  exact ⟨sizes, (splitAboutEqual_several h hfirst hlast).trans hloop, .inr hsplit.allotted⟩

theorem remainOf_eq_zero_iff (n : ℕ) : remainOf n = 0 ↔ n % 2^32 = 0 ∨ 2^31 ≤ n % 2^32 := by
  rw [remainOf]
  split <;> omega

/-- A longer payload is not split right, unless the conversion to int leaves nothing. -/
theorem returns_of_long (hlong : 2^31 ≤ n) (hmax : limits.maxPayloadLen < 2^31)
    (hfirst : limits.firstPacketReductionLen < limits.maxPayloadLen) (hlast : limits.lastPacketReductionLen < limits.maxPayloadLen)
    {P : List ℕ → Prop} (hP : ∀ sizes, P sizes → sizes.sum = n) : Returns limits n P ↔ n % 2^32 = 0 ∨ 2^31 ≤ n % 2^32 := by
  have hcall := splitAboutEqual_several (show ¬ n + limits.singlePacketReductionLen ≤ limits.maxPayloadLen by omega) hfirst hlast
  have hloop : ∃ sizes, splitLoop n limits = some sizes ∧ sizes.sum = remainOf n := splitLoop_sum (by omega) (by omega)
  obtain ⟨sizes, hloop, hsum⟩ := hloop
  rw [← remainOf_eq_zero_iff]
  refine ⟨fun ⟨sizes', hsizes', hor⟩ => ?_, fun hzero => ⟨[], hcall.trans (splitLoop_zero hzero), .inl rfl⟩⟩
  rw [hcall, hloop] at hsizes'
  obtain rfl := Option.some.inj hsizes'
  rcases hor with rfl | hsizes
  · exact hsum.symm
  · have hlt := remainOf_lt n
    have hn := hP sizes hsizes
    omega

/-- The payloads that are split as they should be: those whose size is an `int`, and those for
which the conversion leaves nothing. If a packet alone is to keep the limits of the first and
the last one as well, it has to be short enough. -/
theorem splitAboutEqual_returns_iff (hn : 1 ≤ n) (hmax : limits.maxPayloadLen < 2^31)
    (hfirst : limits.firstPacketReductionLen < limits.maxPayloadLen) (hlast : limits.lastPacketReductionLen < limits.maxPayloadLen)
    (hsingle : limits.singlePacketReductionLen < limits.maxPayloadLen) :
    (Returns limits n (Allotted limits n) ↔ n < 2^31 ∨ n % 2^32 = 0 ∨ 2^31 ≤ n % 2^32) ∧
      (Returns limits n (AllottedAlone limits n) ↔
        (n < 2^31 ∨ n % 2^32 = 0 ∨ 2^31 ≤ n % 2^32) ∧
          (n + limits.singlePacketReductionLen ≤ limits.maxPayloadLen →
            n + limits.firstPacketReductionLen ≤ limits.maxPayloadLen ∧ n + limits.lastPacketReductionLen ≤ limits.maxPayloadLen)) := by
  rcases Nat.lt_or_ge n (2^31) with hint | hlong
  · by_cases hone : n + limits.singlePacketReductionLen ≤ limits.maxPayloadLen
    · have hallotted := allotted_single hn hone
      have hcall := splitAboutEqual_single hone
      refine ⟨iff_of_true ⟨[n], hcall, .inr hallotted⟩ (.inl hint), fun ⟨sizes, hsizes, hor⟩ => ⟨.inl hint, fun _ => ?_⟩,
        fun ⟨_, hroom⟩ => ⟨[n], hcall, .inr ⟨hallotted, ?_, ?_⟩⟩⟩
      · rw [hcall] at hsizes
        obtain rfl := Option.some.inj hsizes
        rcases hor with hnil | halone
        · cases hnil
        · have hle := halone.first n rfl
          have hle' := halone.last n rfl
          omega
      · have hle := (hroom hone).1
        simp only [List.head?_cons, Option.mem_some_iff, forall_eq']
        omega
      · have hle := (hroom hone).2
        simp only [List.getLast?_singleton, Option.mem_some_iff, forall_eq']
        omega
    · obtain ⟨sizes, hcall, hor⟩ := returns_of_int hn hint hone hfirst hlast hsingle
      exact ⟨iff_of_true ⟨sizes, hcall, hor.imp_right AllottedAlone.toAllotted⟩ (.inl hint),
        iff_of_true ⟨sizes, hcall, hor⟩ ⟨.inl hint, fun h => absurd h hone⟩⟩
  · have hnot : ¬ n < 2^31 := by omega
    have hone : ¬ n + limits.singlePacketReductionLen ≤ limits.maxPayloadLen := by omega
    rw [returns_of_long hlong hmax hfirst hlast fun _ h => h.sum, returns_of_long hlong hmax hfirst hlast fun _ h => h.sum,
      or_iff_right hnot]
    exact ⟨Iff.rfl, (and_iff_left fun h => absurd h hone).symm⟩

theorem nine_bytes_returned :
    Returns { maxPayloadLen := 5, firstPacketReductionLen := 1 } 9 (AllottedAlone { maxPayloadLen := 5, firstPacketReductionLen := 1 } 9) :=
  (splitAboutEqual_returns_iff (by decide) (by decide) (by decide) (by decide) (by decide)).2.mpr
    ⟨.inl (by decide), fun h => absurd h (by decide)⟩

/-- Of a payload of 4294969296 bytes only the first 2000 go into packets. -/
theorem long_payload_not_returned : ¬ Returns {} (2^32 + 2000) (Allotted {} (2^32 + 2000)) := by
  intro h
  have hlong := (returns_of_long (by decide) (by decide) (by decide) (by decide) fun _ h => h.sum).mp h
  omega

end Whole

end Split

end RtpFormat
end XrtcServer
