import XrtcServer.Runs
import Mathlib.Data.Int.Notation

/-! The ids that the header extensions of a session are registered with. -/
namespace XrtcServer
namespace Rtp

inductive RTPExtensionType
  | transmissionTimeOffset | audioLevel | csrcAudioLevel | inbandComfortNoise | absoluteSendTime
  | absoluteCaptureTime | videoRotation | transportSequenceNumber | transportSequenceNumber02 | playoutDelay
  | videoContentType | videoLayersAllocation | videoTiming | rtpStreamId | repairedRtpStreamId | mid
  | genericFrameDescriptor00 | genericFrameDescriptor02 | colorSpace | videoFrameTrackingId
  deriving DecidableEq, Repr

namespace RTPExtensionType

/-- The types from `kRtpExtensionNone` on. -/
def all : List RTPExtensionType :=
  [transmissionTimeOffset, audioLevel, csrcAudioLevel, inbandComfortNoise, absoluteSendTime, absoluteCaptureTime,
    videoRotation, transportSequenceNumber, transportSequenceNumber02, playoutDelay, videoContentType,
    videoLayersAllocation, videoTiming, rtpStreamId, repairedRtpStreamId, mid, genericFrameDescriptor00,
    genericFrameDescriptor02, colorSpace, videoFrameTrackingId]

theorem mem_all (type : RTPExtensionType) : type ∈ all := by
  cases type <;> decide

end RTPExtensionType

open RTPExtensionType in
/-- The types of the table of known extensions, in its order. -/
def kExtensions : List RTPExtensionType :=
  [transmissionTimeOffset, audioLevel, csrcAudioLevel, absoluteSendTime, absoluteCaptureTime, videoRotation,
    transportSequenceNumber, transportSequenceNumber02, playoutDelay, videoContentType, videoLayersAllocation,
    videoTiming, rtpStreamId, repairedRtpStreamId, mid, genericFrameDescriptor00, genericFrameDescriptor02, colorSpace,
    inbandComfortNoise, videoFrameTrackingId]

/-- An id of 0 is none. -/
structure RtpHeaderExtensionMap where
  ids : RTPExtensionType → UInt8 := fun _ => 0
  extmapAllowMixed : Bool := false

namespace RtpHeaderExtensionMap

def kMinId : ℤ := 1
def kMaxId : ℤ := 255

def getId (m : RtpHeaderExtensionMap) (type : RTPExtensionType) : UInt8 := m.ids type

def isRegistered (m : RtpHeaderExtensionMap) (type : RTPExtensionType) : Bool := m.getId type ≠ 0

/-- The first type with the id. -/
def getType (m : RtpHeaderExtensionMap) (id : ℤ) : Option RTPExtensionType :=
  RTPExtensionType.all.find? fun type => (m.ids type).toNat = id

def setId (m : RtpHeaderExtensionMap) (type : RTPExtensionType) (id : UInt8) : RtpHeaderExtensionMap :=
  { m with ids := fun other => if other = type then id else m.ids other }

def register (m : RtpHeaderExtensionMap) (id : ℤ) (type : RTPExtensionType) : RtpHeaderExtensionMap × Bool :=
  if id < kMinId ∨ id > kMaxId then (m, false)
  else
    match m.getType id with
    | some registeredType => (m, registeredType = type)
    | none => (m.setId type (UInt8.ofInt id), true)

def registerByType (m : RtpHeaderExtensionMap) (id : ℤ) (type : RTPExtensionType) : RtpHeaderExtensionMap × Bool :=
  match kExtensions.find? fun extension => type = extension with
  | some extension => m.register id extension
  | none => (m, false)

/-- `Uri` gives the names of the extensions. -/
def registerByUri (uriOf : RTPExtensionType → String) (m : RtpHeaderExtensionMap) (id : ℤ) (uri : String) : RtpHeaderExtensionMap × Bool :=
  match kExtensions.find? fun extension => uri = uriOf extension with
  | some extension => m.register id extension
  | none => (m, false)

def deregister (m : RtpHeaderExtensionMap) (type : RTPExtensionType) : RtpHeaderExtensionMap :=
  if m.isRegistered type then m.setId type 0 else m

def deregisterByUri (uriOf : RTPExtensionType → String) (m : RtpHeaderExtensionMap) (uri : String) : RtpHeaderExtensionMap :=
  match kExtensions.find? fun extension => uriOf extension = uri with
  | some extension => m.setId extension 0
  | none => m

def reset (uriOf : RTPExtensionType → String) (m : RtpHeaderExtensionMap) (extensions : List (ℤ × String)) : RtpHeaderExtensionMap :=
  extensions.foldl (fun m extension => (m.registerByUri uriOf extension.1 extension.2).1) { m with ids := fun _ => 0 }

inductive Call
  | registerByType (id : ℤ) (type : RTPExtensionType)
  | registerByUri (id : ℤ) (uri : String)
  | deregister (type : RTPExtensionType)
  | deregisterByUri (uri : String)
  | reset (extensions : List (ℤ × String))
  | setExtmapAllowMixed (extmapAllowMixed : Bool)

def step (uriOf : RTPExtensionType → String) (m : RtpHeaderExtensionMap) : Call → RtpHeaderExtensionMap
  | .registerByType id type => (m.registerByType id type).1
  | .registerByUri id uri => (m.registerByUri uriOf id uri).1
  | .deregister type => m.deregister type
  | .deregisterByUri uri => m.deregisterByUri uriOf uri
  | .reset extensions => m.reset uriOf extensions
  | .setExtmapAllowMixed extmapAllowMixed => { m with extmapAllowMixed }

variable {m : RtpHeaderExtensionMap} {type type' : RTPExtensionType} {id : ℤ} {uriOf : RTPExtensionType → String}

/-- No id stands for two extensions. -/
def Distinct (m : RtpHeaderExtensionMap) : Prop :=
  ∀ type type', m.getId type ≠ 0 → m.getId type = m.getId type' → type = type'

theorem Distinct.getType_iff (h : m.Distinct) (hid : 1 ≤ id) : m.getType id = some type ↔ (m.getId type).toNat = id := by
  constructor
  · intro hfound
    simpa [getId] using List.find?_some hfound
  · intro hid'
    cases hfound : m.getType id with
    | none =>
      have hnot := List.find?_eq_none.mp hfound type (RTPExtensionType.mem_all type)
      exact absurd hid' (by simpa [getId] using hnot)
    | some type' =>
      have hsome : (m.getId type').toNat = id := by simpa [getId] using List.find?_some hfound
      have hsame : m.getId type' = m.getId type := by
        apply UInt8.toNat_inj.mp
        omega
      have hne : m.getId type' ≠ 0 := by
        intro hzero
        rw [hzero] at hsome
        simp at hsome
        omega
      rw [h type' type hne hsame]

theorem getId_setId (id' : UInt8) : (m.setId type id').getId type' = if type' = type then id' else m.getId type' := rfl

/-- An id that no other extension has can be set, or none. -/
theorem Distinct.setId (h : m.Distinct) {id' : UInt8} (hfree : id' ≠ 0 → ∀ other, m.getId other ≠ id') :
    (m.setId type id').Distinct := by
  intro a b hne heq
  rw [getId_setId] at hne
  rw [getId_setId, getId_setId] at heq
  split at heq
  · next ha =>
    rw [if_pos ha] at hne
    split at heq
    · next hb => exact ha.trans hb.symm
    · exact absurd heq.symm (hfree hne b)
  · next ha =>
    rw [if_neg ha] at hne
    split at heq
    · exact absurd heq (hfree (heq ▸ hne) a)
    · exact h a b hne heq

theorem getId_of_getType_none (hnone : m.getType id = none) : ((m.getId type).toNat : ℤ) ≠ id := by
  simpa [getId] using List.find?_eq_none.mp hnone type (RTPExtensionType.mem_all type)

/-- An id that is accepted fits into a byte. -/
theorem toNat_ofInt (hid : ¬(id < kMinId ∨ id > kMaxId)) : ((UInt8.ofInt id).toNat : ℤ) = id := by
  have hmin : kMinId = 1 := rfl
  have hmax : kMaxId = 255 := rfl
  obtain ⟨n, rfl⟩ := Int.eq_ofNat_of_zero_le (show 0 ≤ id by omega)
  have hn : n < 256 := by omega
  simp [UInt8.ofInt]
  omega

theorem Distinct.register (h : m.Distinct) (id : ℤ) (type : RTPExtensionType) : (m.register id type).1.Distinct := by
  unfold RtpHeaderExtensionMap.register
  split
  · exact h
  · next hid =>
    split
    · exact h
    · next hnone =>
      refine h.setId fun _ other heq => @getId_of_getType_none m other id hnone ?_
      rw [heq, toNat_ofInt hid]

theorem Distinct.registerByUri (h : m.Distinct) (id : ℤ) (uri : String) :
    (m.registerByUri uriOf id uri).1.Distinct := by
  unfold RtpHeaderExtensionMap.registerByUri
  split
  · exact h.register _ _
  · exact h

/-- A type is found in the table. -/
theorem registerByType_eq : m.registerByType id type = m.register id type := by
  have hfound : kExtensions.find? (fun extension => type = extension) = some type := by
    cases type <;> rfl
  rw [registerByType, hfound]

theorem Distinct.step (h : m.Distinct) (call : Call) : (m.step uriOf call).Distinct := by
  cases call with
  | registerByType id type =>
    rw [RtpHeaderExtensionMap.step, registerByType_eq]
    exact h.register id type
  | registerByUri id uri => exact h.registerByUri id uri
  | deregister type =>
    unfold RtpHeaderExtensionMap.step RtpHeaderExtensionMap.deregister
    dsimp only
    split
    · exact h.setId fun hne => absurd rfl hne
    · exact h
  | deregisterByUri uri =>
    unfold RtpHeaderExtensionMap.step RtpHeaderExtensionMap.deregisterByUri
    dsimp only
    split
    · exact h.setId fun hne => absurd rfl hne
    · exact h
  | reset extensions =>
    have hclear : Distinct { m with ids := fun _ => 0 } := fun type type' hne => absurd rfl hne
    unfold RtpHeaderExtensionMap.step RtpHeaderExtensionMap.reset
    dsimp only
    generalize { m with ids := fun _ => 0 } = cleared at hclear
    induction extensions generalizing cleared with
    | nil => exact hclear
    | cons extension extensions ih => exact ih _ (hclear.registerByUri _ _)
  | setExtmapAllowMixed extmapAllowMixed => exact h

theorem distinct_run (extmapAllowMixed : Bool) (calls : List Call) :
    (Runs.run (step uriOf) { extmapAllowMixed } calls).Distinct := by
  have hempty : Distinct { extmapAllowMixed } := fun type type' hne => absurd rfl hne
  generalize ({ extmapAllowMixed } : RtpHeaderExtensionMap) = m at hempty ⊢
  induction calls generalizing m with
  | nil => exact hempty
  | cons call calls ih => exact ih _ (hempty.step call)

/-- What a registration says: it succeeds exactly if the extension has the id afterwards, and nothing else is
changed by it. -/
structure Registers (m : RtpHeaderExtensionMap) (id : ℤ) (type : RTPExtensionType) : Prop where
  registered : (m.registerByType id type).2 = true ↔ 1 ≤ id ∧ (((m.registerByType id type).1.getId type).toNat : ℤ) = id
  refused : (m.registerByType id type).2 = false → (m.registerByType id type).1 = m
  others : ∀ other, other ≠ type → (m.registerByType id type).1.getId other = m.getId other

theorem Distinct.registers (h : m.Distinct) (id : ℤ) (type : RTPExtensionType) : m.Registers id type := by
  have hmin : kMinId = 1 := rfl
  have hmax : kMaxId = 255 := rfl
  by_cases hid : id < kMinId ∨ id > kMaxId
  · have hsame : m.registerByType id type = (m, false) := by
      rw [registerByType_eq, RtpHeaderExtensionMap.register, if_pos hid]
    have hlt := (m.getId type).toNat_lt
    refine ⟨?_, fun _ => by rw [hsame], fun _ _ => by rw [hsame]⟩
    rw [hsame]
    exact ⟨nofun, fun hregistered => by dsimp only at hregistered; omega⟩
  · cases hfound : m.getType id with
    | some registeredType =>
      have hsame : m.registerByType id type = (m, decide (registeredType = type)) := by
        rw [registerByType_eq, RtpHeaderExtensionMap.register, if_neg hid, hfound]
      refine ⟨?_, fun _ => by rw [hsame], fun _ _ => by rw [hsame]⟩
      rw [hsame, decide_eq_true_eq, and_iff_right (by omega), ← h.getType_iff (by omega), hfound, Option.some.injEq]
    | none =>
      have hset : m.registerByType id type = (m.setId type (UInt8.ofInt id), true) := by
        rw [registerByType_eq, RtpHeaderExtensionMap.register, if_neg hid, hfound]
      refine ⟨?_, fun hfalse => ?_, fun other hne => ?_⟩
      · rw [hset, getId_setId, if_pos rfl, toNat_ofInt hid]
        exact ⟨fun _ => ⟨by omega, rfl⟩, fun _ => rfl⟩
      · rw [hset] at hfalse
        cases hfalse
      · rw [hset, getId_setId, if_neg hne]

/-- In every run of calls an extension and its id stand for each other, and a registration does what it
says. -/
theorem registrations (uriOf : RTPExtensionType → String) (extmapAllowMixed : Bool) (calls : List Call) :
    let m := Runs.run (step uriOf) { extmapAllowMixed } calls
    (∀ id : ℤ, 1 ≤ id → ∀ type, m.getType id = some type ↔ (m.getId type).toNat = id) ∧
      (∀ type type', m.isRegistered type → m.getId type = m.getId type' → type = type') ∧
      ∀ id type, m.Registers id type := by
  have h := @distinct_run uriOf extmapAllowMixed calls
  refine ⟨fun id hid type => h.getType_iff hid, fun type type' hne => h type type' ?_, h.registers⟩
  simpa [isRegistered] using hne

end RtpHeaderExtensionMap
end Rtp
end XrtcServer
