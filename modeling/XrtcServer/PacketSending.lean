import XrtcServer.PacketPlan

/-! The calls of `NextPacket` on a queue that holds the groups of a plan. -/
namespace XrtcServer
namespace RtpFormat
open ByteFormat

/-- The packets for a list of payloads; the marker is on the last one when these are the
last payloads. -/
def sentPackets (capacity : ℕ) (last : Bool) : List Bytes → List RtpPacketToSend
  | [] => []
  | b :: bs =>
    { ({ capacity } : RtpPacketToSend).write b with marker := last && decide (bs = []) } ::
      sentPackets capacity last bs

theorem sentPackets_append (capacity : ℕ) (last : Bool) (bs bs' : List Bytes) :
    sentPackets capacity last (bs ++ bs') =
      sentPackets capacity (last && decide (bs' = [])) bs ++ sentPackets capacity last bs' := by
  induction bs with
  | nil => rfl
  | cons b bs ih =>
    have hnil : decide (bs ++ bs' = []) = (decide (bs' = []) && decide (bs = [])) := by
      simp [Bool.and_comm]
    simp only [List.cons_append, sentPackets, ih, hnil, Bool.and_assoc]

@[simp] theorem sentPackets_length (capacity : ℕ) (last : Bool) (bs : List Bytes) :
    (sentPackets capacity last bs).length = bs.length := by
  induction bs with
  | nil => rfl
  | cons b bs ih => simp [sentPackets, ih]

section Taken

/-- An aggregation packet takes its units, and nothing of what follows them. -/
theorem takeAggregated_stapAUnits {us : List Bytes} (h : us ≠ []) (first : Bool) (rest : List PacketUnit) :
    takeAggregated (stapAUnits first us ++ rest) =
      ⟨us.flatMap fun u => toBE kLengthFieldSize u.length ++ u, rest, us.length, false⟩ := by
  induction us generalizing first with
  | nil => exact absurd rfl h
  | cons u us ih =>
    cases us with
    | nil => simp [stapAUnits, takeAggregated]
    | cons v us =>
      have ih := ih (by simp) false
      simp only [stapAUnits, List.cons_append] at ih ⊢
      rw [takeAggregated, ih]
      simp

end Taken

section Send
variable {capacity : ℕ} {p : RtpPacketizerH264} {rest : List PacketUnit}

/-- One call sends a payload and goes on with the rest of the queue. -/
structure Emits (capacity : ℕ) (p : RtpPacketizerH264) (b : Bytes) (popped : Bool) (rest : List PacketUnit)
    (p' : RtpPacketizerH264) : Prop where
  body : ∀ sent, RtpPacketizerH264.sendBody capacity (p, sent) =
    .inr (p', sent ++ sentPackets capacity (decide (rest = [])) [b])
  packets : p'.packets = rest
  readOutside : p'.readOutside = p.readOutside
  readPopped : p'.readPopped = (p.readPopped || popped)

variable (capacity) in
theorem emits_single {packet : PacketUnit} (hp : p.packets = packet :: rest)
    (hfirst : packet.firstFragment = true) (hlast : packet.lastFragment = true) :
    ∃ p', Emits capacity p packet.sourceFragment false rest p' := by
  let p' : RtpPacketizerH264 :=
    { p with
      packets := rest
      inputFragments := p.inputFragments.tail
      numPacketsLeft := p.numPacketsLeft - 1 }
  refine ⟨p', ?_, rfl, rfl, by simp [p']⟩
  intro sent
  simp [RtpPacketizerH264.sendBody, RtpPacketizerH264.nextPacket, hp, hfirst, hlast, sentPackets, p']

variable (capacity) in
theorem emits_stapA {u v : Bytes} {us : List Bytes} (hp : p.packets = (Group.aggregate (u :: v :: us)).units ++ rest) :
    ∃ p' b, Emits capacity p b false rest p' ∧ (Group.aggregate (u :: v :: us)).payloads = [b] := by
  have htaken := takeAggregated_stapAUnits (show u :: v :: us ≠ [] by simp) true rest
  have hp' : p.packets = ⟨u, true, false, true, headerOf u⟩ :: (stapAUnits false (v :: us) ++ rest) := hp
  let p' : RtpPacketizerH264 :=
    { p with
      packets := rest
      inputFragments := p.inputFragments.drop (u :: v :: us).length
      readPopped := p.readPopped || false
      numPacketsLeft := p.numPacketsLeft - 1 }
  refine ⟨p', _, ⟨?_, rfl, rfl, rfl⟩, rfl⟩
  intro sent
  simp only [Group.units] at hp
  simp only [RtpPacketizerH264.sendBody, RtpPacketizerH264.nextPacket, hp', Bool.false_eq_true, and_false, if_false,
    if_true, RtpPacketizerH264.nextAggregatedPacket]
  rw [← hp', hp, htaken]
  simp [sentPackets, p']

variable (capacity) in
theorem emits_fuA {u : Bytes} {offset n : ℕ} {first : Bool} {sizes : List ℕ}
    (hp : p.packets = fuAUnits u offset first (n :: sizes) ++ rest) (h : first = true → sizes ≠ []) :
    ∃ p' b, Emits capacity p b true (fuAUnits u (offset + n) false sizes ++ rest) p' ∧
      fuAPayloads u offset first (n :: sizes) = b :: fuAPayloads u (offset + n) false sizes := by
  have hnot : ¬ (first = true ∧ decide (sizes = []) = true) := by
    simpa using h
  let p' : RtpPacketizerH264 :=
    { p with
      packets := fuAUnits u (offset + n) false sizes ++ rest
      inputFragments := if decide (sizes = []) = true then p.inputFragments.tail else p.inputFragments
      readPopped := true
      numPacketsLeft := p.numPacketsLeft - 1 }
  refine ⟨p', _, ⟨?_, rfl, rfl, by simp [p']⟩, rfl⟩
  intro sent
  simp only [fuAUnits, List.cons_append] at hp
  simp only [RtpPacketizerH264.sendBody, RtpPacketizerH264.nextPacket, hp, hnot, Bool.false_eq_true, if_false,
    RtpPacketizerH264.nextFragmentPacket, List.tail_cons]
  simp [sentPackets, p']

/-- The packetizer sends payloads and then has the rest of the queue. -/
def Sends (capacity : ℕ) (p : RtpPacketizerH264) (bs : List Bytes) (popped : Bool) (rest : List PacketUnit) : Prop :=
  ∃ p' : RtpPacketizerH264, p'.packets = rest ∧ p'.readOutside = p.readOutside ∧
    p'.readPopped = (p.readPopped || popped) ∧
    ∀ sent, Loops.result (RtpPacketizerH264.sendBody capacity) (p, sent) =
      Loops.result (RtpPacketizerH264.sendBody capacity)
        (p', sent ++ sentPackets capacity (decide (rest = [])) bs)

theorem Emits.sends {b : Bytes} {popped : Bool} {p' : RtpPacketizerH264} (h : Emits capacity p b popped rest p') :
    Sends capacity p [b] popped rest :=
  ⟨p', h.packets, h.readOutside, h.readPopped, fun sent => Loops.result_again (h.body sent)⟩

theorem Emits.sends_cons {b : Bytes} {bs : List Bytes} {popped popped' : Bool} {p' : RtpPacketizerH264}
    {rest' : List PacketUnit} (h : Emits capacity p b popped rest p') (h' : Sends capacity p' bs popped' rest')
    (hbs : bs ≠ []) (hrest : rest ≠ []) : Sends capacity p (b :: bs) (popped || popped') rest' := by
  obtain ⟨q, hpackets, houtside, hpopped, hresult⟩ := h'
  refine ⟨q, hpackets, houtside.trans h.readOutside, by rw [hpopped, h.readPopped, Bool.or_assoc], fun sent => ?_⟩
  rw [Loops.result_again (h.body sent), hresult]
  simp [sentPackets, hbs, hrest]

theorem sends_fuA {u : Bytes} {offset : ℕ} {first : Bool} {sizes : List ℕ}
    (hp : p.packets = fuAUnits u offset first sizes ++ rest) (hsizes : sizes ≠ [])
    (h : first = true → 2 ≤ sizes.length) :
    Sends capacity p (fuAPayloads u offset first sizes) true rest := by
  induction sizes generalizing p offset first with
  | nil => exact absurd rfl hsizes
  | cons n sizes ih =>
    obtain ⟨p', b, hemits, hpayloads⟩ := emits_fuA capacity hp fun hfirst hnil => by
      have := h hfirst
      simp [hnil] at this
    rw [hpayloads]
    cases sizes with
    | nil => exact hemits.sends
    | cons m sizes =>
      have hrest := ih hemits.packets (by simp) (by simp)
      exact hemits.sends_cons hrest (by simp [fuAPayloads]) (by simp [fuAUnits])

variable (capacity) in
/-- A group of the queue goes out with its payloads. -/
theorem sends_group {g : Group} (hp : p.packets = g.units ++ rest) (hg : g.isEmpty = false) :
    Sends capacity p g.payloads g.fragmented rest := by
  cases g with
  | aggregate us =>
    rcases us with _ | ⟨u, _ | ⟨v, us⟩⟩
    · simp [Group.isEmpty] at hg
    · obtain ⟨p', hemits⟩ := emits_single capacity hp rfl rfl
      exact hemits.sends
    · obtain ⟨p', b, hemits, hpayloads⟩ := emits_stapA capacity hp
      rw [hpayloads]
      exact hemits.sends
  | fragment u sizes =>
    rcases sizes with _ | ⟨n, _ | ⟨m, sizes⟩⟩
    · simp [Group.isEmpty] at hg
    · obtain ⟨p', hemits⟩ := emits_single capacity hp rfl rfl
      exact hemits.sends
    · exact sends_fuA hp (by simp) (by simp)

theorem units_ne_nil {g : Group} (hg : g.isEmpty = false) : g.units ≠ [] := by
  rcases g with ⟨_ | _⟩ | ⟨_, _ | _⟩ <;> simp_all [Group.isEmpty, Group.units, stapAUnits, fuAUnits]

theorem payloads_ne_nil {g : Group} (hg : g.isEmpty = false) : g.payloads ≠ [] := by
  rcases g with ⟨_ | ⟨_, _ | _⟩⟩ | ⟨_, _ | ⟨_, _ | _⟩⟩ <;> simp_all [Group.isEmpty, Group.payloads, fuAPayloads]

variable (capacity) in
/-- All the groups go out, and then a call returns false. -/
theorem send_groups {groups : List Group} (hp : p.packets = groups.flatMap Group.units)
    (hgroups : ∀ g ∈ groups, g.isEmpty = false) (sent : List RtpPacketToSend) :
    ∃ p', Loops.result (RtpPacketizerH264.sendBody capacity) (p, sent) =
        some (p', sent ++ sentPackets capacity true (groups.flatMap Group.payloads)) ∧
      p'.readOutside = p.readOutside ∧ p'.readPopped = (p.readPopped || groups.any Group.fragmented) := by
  induction groups generalizing p sent with
  | nil =>
    refine ⟨p, ?_, rfl, by simp⟩
    rw [Loops.result_leave]
    simp only [List.flatMap_nil] at hp
    simp [RtpPacketizerH264.sendBody, RtpPacketizerH264.nextPacket, hp, sentPackets]
  | cons g groups ih =>
    rw [List.flatMap_cons] at hp
    obtain ⟨p₁, hpackets, houtside, hpopped, hresult⟩ :=
      sends_group capacity hp (hgroups g (by simp))
    obtain ⟨p', hrest, houtside', hpopped'⟩ := ih hpackets (fun g' hg' => hgroups g' (by simp [hg']))
      (sent ++ sentPackets capacity (decide (groups.flatMap Group.units = [])) g.payloads)
    refine ⟨p', ?_, houtside'.trans houtside, by rw [hpopped', hpopped, List.any_cons, Bool.or_assoc]⟩
    have hlast : decide (groups.flatMap Group.units = []) = decide (groups.flatMap Group.payloads = []) := by
      cases groups with
      | nil => rfl
      | cons g' groups =>
        have hg' := hgroups g' (by simp)
        simp [units_ne_nil hg', payloads_ne_nil hg']
    rw [hresult, hrest, List.flatMap_cons, sentPackets_append, hlast, Bool.true_and, List.append_assoc]

/-- The groups of a payload, as `GeneratePackets` plans them. -/
def groupsOf (limits : PayloadLimits) (fragments : List Bytes) : List Group :=
  plan limits fragments.length 0 [] fragments

theorem groupsOf_chunk (limits : ValidLimits capacity) (fragments : List Bytes) :
    (groupsOf limits.toPayloadLimits fragments).flatMap Group.chunk = fragments :=
  plan_chunk limits _ 0 [] fragments

theorem groupsOf_fits (limits : ValidLimits capacity) (fragments : List Bytes) :
    PlanFits limits fragments.length 0 (groupsOf limits.toPayloadLimits fragments) :=
  plan_fits limits _ 0 [] (Nat.zero_le _) trivial (Nat.zero_add _)

/-- The payloads that the calls of `NextPacket` send: none when the packetizer gives up. -/
def payloadsOf (limits : PayloadLimits) (fragments : List Bytes) : List Bytes :=
  if (groupsOf limits fragments).any Group.isEmpty then []
  else (groupsOf limits fragments).flatMap Group.payloads

/-- The constructor queues the groups, or nothing when one of them is empty. -/
theorem make_eq (limits : ValidLimits capacity) (payload : Bytes) :
    ∃ p, RtpPacketizerH264.make payload limits.toPayloadLimits = some p ∧ p.readPopped = false ∧
      if (groupsOf limits.toPayloadLimits (fragmentsOf payload)).any Group.isEmpty then
        p.packets = [] ∧ p.numPacketsLeft = 0
      else
        p.packets = (groupsOf limits.toPayloadLimits (fragmentsOf payload)).flatMap Group.units ∧
          p.numPacketsLeft =
            ((groupsOf limits.toPayloadLimits (fragmentsOf payload)).flatMap Group.payloads).length ∧
          p.readOutside = (fragmentsOf payload).any (· = []) := by
  have hstart : (⟨limits.toPayloadLimits, fragmentsOf payload, [], 0, false, false⟩ : RtpPacketizerH264).limits =
    limits.toPayloadLimits := rfl
  obtain ⟨r, hresult, hr⟩ := generateBody_result limits hstart (Nat.zero_le _)
  have hgroups := groupsOf_chunk limits (fragmentsOf payload)
  have hmake : RtpPacketizerH264.make payload limits.toPayloadLimits =
      some (if r.1 then r.2 else { r.2 with numPacketsLeft := 0, packets := [] }) := by
    rw [RtpPacketizerH264.make, RtpPacketizerH264.generatePackets, hresult]
    rfl
  rw [List.drop_zero] at hr
  change if (groupsOf limits.toPayloadLimits (fragmentsOf payload)).any Group.isEmpty then _ else
    r = (true, RtpPacketizerH264.extend _ (groupsOf limits.toPayloadLimits (fragmentsOf payload))) at hr
  refine ⟨_, hmake, ?_⟩
  split at hr
  · rename_i hany
    rw [if_pos hany, hr.1]
    exact ⟨hr.2, rfl, rfl⟩
  · rename_i hany
    rw [if_neg hany, hr]
    exact ⟨rfl, rfl, Nat.zero_add _, by simp [RtpPacketizerH264.extend, hgroups]⟩

/-- A packetizer can be made and its packets sent, whatever the payload. -/
theorem send_eq (limits : ValidLimits capacity) (payload : Bytes) :
    ∃ p p', RtpPacketizerH264.make payload limits.toPayloadLimits = some p ∧
      p.numPacketsLeft = (payloadsOf limits.toPayloadLimits (fragmentsOf payload)).length ∧
      p.send capacity =
        some (p', sentPackets capacity true (payloadsOf limits.toPayloadLimits (fragmentsOf payload))) ∧
      if (groupsOf limits.toPayloadLimits (fragmentsOf payload)).any Group.isEmpty then p'.readPopped = false
      else p'.readOutside = (fragmentsOf payload).any (· = []) ∧
        p'.readPopped = (groupsOf limits.toPayloadLimits (fragmentsOf payload)).any Group.fragmented := by
  obtain ⟨p, hmake, hpopped, hp⟩ := make_eq limits payload
  by_cases hany : (groupsOf limits.toPayloadLimits (fragmentsOf payload)).any Group.isEmpty
  · rw [if_pos hany] at hp
    have hnil : p.packets = ([] : List Group).flatMap Group.units := hp.1
    obtain ⟨p', hsend, -, hpopped'⟩ := send_groups capacity hnil (by simp) []
    refine ⟨p, p', hmake, ?_, ?_, ?_⟩
    · rw [payloadsOf, if_pos hany, hp.2]
      rfl
    · rw [RtpPacketizerH264.send, hsend, payloadsOf, if_pos hany]
      rfl
    · rw [if_pos hany, hpopped', hpopped]
      rfl
  · rw [if_neg hany] at hp
    have hgroups : ∀ g ∈ groupsOf limits.toPayloadLimits (fragmentsOf payload), g.isEmpty = false := by
      simpa using hany
    obtain ⟨p', hsend, houtside, hpopped'⟩ := send_groups capacity hp.1 hgroups []
    refine ⟨p, p', hmake, ?_, ?_, ?_⟩
    · rw [payloadsOf, if_neg hany, hp.2.1]
    · rw [RtpPacketizerH264.send, hsend, payloadsOf, if_neg hany]
      rfl
    · rw [if_neg hany, houtside, hpopped', hpopped, hp.2.2]
      exact ⟨rfl, Bool.false_or _⟩

end Send

end RtpFormat
end XrtcServer
