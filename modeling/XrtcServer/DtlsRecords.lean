import Mathlib.Data.List.GetD
import XrtcServer.DtlsTransport
import XrtcServer.Loops
import XrtcServer.Runs

/-! A datagram goes to the SSL stream when it is a sequence of complete DTLS records: the loop
over its records ends, stays inside of it and accepts exactly these, on the live path and for
the cached ClientHello. -/
namespace XrtcServer
namespace Dtls
open ByteFormat

/-- A complete record: a header, and as many bytes as the last two of the header spell. -/
def IsRecord (r : Bytes) : Prop :=
  ∃ header body, r = header ++ body ∧ header.length = kDtlsRecordHeaderLen ∧
    body.length = beNat (header.drop 11)

/-- Complete records, one after the other and nothing else. -/
def Records (data : Bytes) : Prop := ∃ rs : List Bytes, (∀ r ∈ rs, IsRecord r) ∧ data = rs.flatten

theorem recordLen_eq {data : Bytes} (h : kDtlsRecordHeaderLen ≤ data.length) :
    recordLen data = beNat ((data.take kDtlsRecordHeaderLen).drop 11) := by
  rw [kDtlsRecordHeaderLen] at h ⊢
  have hlt : (data.getD 12 0).toNat < 2^8 := UInt8.toNat_lt _
  have hbytes : (data.take 13).drop 11 = [data.getD 11 0, data.getD 12 0] := by
    rw [List.drop_take, List.drop_eq_getElem_cons (by omega : 11 < data.length),
      List.drop_eq_getElem_cons (by omega : 12 < data.length),
      List.getD_eq_getElem data 0 (by omega : 11 < data.length),
      List.getD_eq_getElem data 0 (by omega : 12 < data.length)]
    rfl
  rw [hbytes, recordLen, ← Nat.shiftLeft_add_eq_or_of_lt hlt, Nat.shiftLeft_eq]
  simp [beNat]

theorem recordLen_append {header : Bytes} (h : header.length = kDtlsRecordHeaderLen) (rest : Bytes) :
    recordLen (header ++ rest) = beNat (header.drop 11) := by
  rw [recordLen_eq (by simp [h]), ← h, List.take_left]

/-- The first record of a datagram has the length that the loop computes for it. -/
theorem IsRecord.length {r : Bytes} (h : IsRecord r) (rest : Bytes) :
    r.length = kDtlsRecordHeaderLen + recordLen (r ++ rest) := by
  obtain ⟨header, body, rfl, hheader, hbody⟩ := h
  rw [List.append_assoc, recordLen_append hheader, List.length_append, hheader, hbody]

theorem isRecord_take {data : Bytes} (h : recordLen data + kDtlsRecordHeaderLen ≤ data.length) :
    IsRecord (data.take (kDtlsRecordHeaderLen + recordLen data)) := by
  have hheader : kDtlsRecordHeaderLen ≤ data.length := by omega
  refine ⟨data.take kDtlsRecordHeaderLen, (data.drop kDtlsRecordHeaderLen).take (recordLen data), ?_, ?_, ?_⟩
  · rw [List.take_add]
  · exact List.length_take_of_le hheader
  · rw [List.length_take, List.length_drop, ← recordLen_eq hheader]
    omega

theorem records_nil : Records [] := ⟨[], by simp, rfl⟩

theorem records_iff {data : Bytes} (hdata : data ≠ []) :
    Records data ↔ recordLen data + kDtlsRecordHeaderLen ≤ data.length ∧
      Records (data.drop (kDtlsRecordHeaderLen + recordLen data)) := by
  constructor
  · rintro ⟨rs, hrs, rfl⟩
    cases rs with
    | nil => exact absurd rfl hdata
    | cons r rs =>
      rw [List.flatten_cons]
      have hlen := (hrs r List.mem_cons_self).length rs.flatten
      constructor
      · rw [List.length_append, hlen]
        omega
      · rw [← hlen, List.drop_left]
        exact ⟨rs, fun r' hr' => hrs r' (List.mem_cons_of_mem r hr'), rfl⟩
  · rintro ⟨hle, rs, hrs, hrest⟩
    refine ⟨data.take (kDtlsRecordHeaderLen + recordLen data) :: rs, ?_, ?_⟩
    · intro r hr
      rcases List.mem_cons.mp hr with rfl | hr
      · exact isRecord_take hle
      · exact hrs r hr
    · rw [List.flatten_cons, ← hrest, List.take_append_drop]

theorem recordsComplete_iff (data : Bytes) : recordsComplete data = true ↔ Records data := by
  induction data using recordsComplete.induct with
  | case1 => simp [recordsComplete, records_nil]
  | case2 data hdata hshort =>
    rw [recordsComplete, if_neg hdata, if_pos hshort, records_iff hdata]
    simp only [Bool.false_eq_true, false_iff, not_and]
    omega
  | case3 data hdata hshort hlong =>
    rw [recordsComplete, if_neg hdata, if_neg hshort, if_pos hlong, records_iff hdata]
    simp only [Bool.false_eq_true, false_iff, not_and]
    omega
  | case4 data hdata hshort hlong ih =>
    rw [recordsComplete, if_neg hdata, if_neg hshort, if_neg hlong, ih, records_iff hdata]
    exact ⟨fun h => ⟨by omega, h⟩, fun h => h.2⟩

instance (data : Bytes) : Decidable (Records data) :=
  decidable_of_iff _ (recordsComplete_iff data)

namespace Attached
variable {σ η τ ℓ : Type} (A : SslAdapter σ η τ) (slots : Slots σ ℓ)

/-- The transport after `on_received_packet` of the channel below its SSL stream. -/
def handOver (x : Attached σ ℓ) (s : Stream σ) (data : Bytes) : Attached σ ℓ :=
  x.afterCall A slots (A.onReadable (s.writeBack data)).1 (A.onReadable (s.writeBack data)).2

section Stream
variable {A slots} {x : Attached σ ℓ}

@[simp] theorem dtls_setState (state : DtlsTransportState) :
    (x.setDtlsState slots state).transport.dtls = x.transport.dtls := by
  unfold setDtlsState
  split <;> rfl

@[simp] theorem cachedClientHello_setState (state : DtlsTransportState) :
    (x.setDtlsState slots state).transport.cachedClientHello = x.transport.cachedClientHello := by
  unfold setDtlsState
  split <;> rfl

/-- There is a stream, and this ClientHello is cached. -/
def Streams (hello : Bytes) (x : Attached σ ℓ) : Prop :=
  x.transport.dtls.isSome ∧ x.transport.cachedClientHello = hello

variable {hello : Bytes}

theorem Streams.setDtlsState (h : Streams hello x) (state : DtlsTransportState) :
    Streams hello (x.setDtlsState slots state) := by
  simpa [Streams] using h

theorem Streams.readLoop (h : Streams hello x) (n : ℕ) : Streams hello (x.readLoop A slots n) := by
  induction n generalizing x with
  | zero => exact h
  | succ n ih =>
    unfold Attached.readLoop
    cases hs : x.transport.dtls with
    | none => exact h
    | some s =>
      have hread : Streams hello (x.setStream (A.read s).1) := ⟨rfl, h.2⟩
      dsimp only
      cases (A.read s).2 with
      | success => exact ih hread
      | eos => exact Streams.setDtlsState (x := (x.setStream _).setWritableState false) hread .closed
      | error => exact Streams.setDtlsState (x := (x.setStream _).setWritableState false) hread .failed
      | block => exact hread

theorem Streams.onDtlsEvent (h : Streams hello x) (e : SslEvent) :
    Streams hello (x.onDtlsEvent A slots e) := by
  have hopen : Streams hello (if e.seOpen then (x.setWritableState true).setDtlsState slots .connected
      else x) := by
    split
    · exact Streams.setDtlsState (x := x.setWritableState true) h .connected
    · exact h
  have hread : ∀ y : Attached σ ℓ, Streams hello y →
      Streams hello (if e.seRead then y.readAll A slots else y) := by
    intro y hy
    split
    · unfold readAll
      cases y.transport.dtls with
      | none => exact hy
      | some s => exact hy.readLoop _
    · exact hy
  unfold Attached.onDtlsEvent
  dsimp only
  split
  · exact Streams.setDtlsState (x := Attached.setWritableState _ false) (hread _ hopen) _
  · exact hread _ hopen

variable (A slots x) in
/-- A call of the stream leaves a stream, and the cache as it was. -/
theorem streams_afterCall (s : Stream σ) (events : List SslEvent) :
    Streams x.transport.cachedClientHello (x.afterCall A slots s events) := by
  have hfold : ∀ y : Attached σ ℓ, Streams x.transport.cachedClientHello y →
      Streams x.transport.cachedClientHello (events.foldl (Attached.onDtlsEvent A slots) y) := by
    induction events with
    | nil => exact fun y hy => hy
    | cons e events ih => exact fun y hy => ih _ (hy.onDtlsEvent e)
  exact hfold _ ⟨rfl, rfl⟩

end Stream

theorem handleDtlsPacket_eq {x : Attached σ ℓ} {s : Stream σ} (hs : x.transport.dtls = some s)
    (data : Bytes) : x.handleDtlsPacket A slots data =
      if Records data then (x.handOver A slots s data, true) else (x, false) := by
  unfold handleDtlsPacket
  rw [hs]
  exact if_congr (recordsComplete_iff data) rfl rfl

theorem replayClientHello_eq {x : Attached σ ℓ} {s : Stream σ} (hs : x.transport.dtls = some s) :
    x.replayClientHello A slots =
      if x.transport.cachedClientHello = [] then x
      else
        let y := if Records x.transport.cachedClientHello
          then x.handOver A slots s x.transport.cachedClientHello else x.setDtlsState slots .failed
        { y with transport := { y.transport with cachedClientHello := [] } } := by
  unfold replayClientHello
  rw [handleDtlsPacket_eq A slots hs]
  by_cases hcached : x.transport.cachedClientHello = []
  · simp [hcached]
  · rw [if_pos (List.length_pos_iff.mpr hcached), if_neg hcached]
    by_cases hrecords : Records x.transport.cachedClientHello
    · simp [hrecords]
    · simp [hrecords]

/-- The transport after a successful `StartSSL`. -/
def started (x : Attached σ ℓ) (s : Stream σ) : Attached σ ℓ :=
  (x.afterCall A slots (A.startSsl s).1 (A.startSsl s).2.2).setDtlsState slots .connecting

/-- What happens to a transport. -/
inductive Input (τ : Type)
  | task (task : τ)
  | packet (buf : Bytes) (ts : ℤ)
  | setRemoteFingerprint (digestAlg digest : Bytes)
  | setLocalCertificate (cert : Option ℕ)
  | iceWritable (writable : Bool)
  | iceReceiving (receiving : Bool)

/-- A new transport, with the crypto suites of its constructor. -/
def start (srtpCiphers : List ℤ) (listener : ℓ) : Attached σ ℓ :=
  { transport := { srtpCiphers }, listener }

def step (x : Attached σ ℓ) : Input τ → Attached σ ℓ
  | .task task => x.onTask A slots task
  | .packet buf ts => x.onReadPacket A slots buf ts
  | .setRemoteFingerprint digestAlg digest => (x.setRemoteFingerprint A slots digestAlg digest).1
  | .setLocalCertificate cert => (x.setLocalCertificate cert).1
  | .iceWritable writable => x.onWritableState A slots writable
  | .iceReceiving receiving => x.onReceivingState slots receiving

/-- DTLS runs: its packets are handled as they come. -/
def Running (x : Attached σ ℓ) : Prop :=
  x.transport.dtlsState = .connecting ∨ x.transport.dtlsState = .connected

/-- Where DTLS runs there is a stream. -/
def Backed (x : Attached σ ℓ) : Prop := x.Running → x.transport.dtls.isSome

section Backed
variable {A slots} {x : Attached σ ℓ}

theorem backed_of_isSome (h : x.transport.dtls.isSome) : x.Backed := fun _ => h

theorem backed_setDtlsState {state : DtlsTransportState}
    (h : state ≠ .connecting ∧ state ≠ .connected) : (x.setDtlsState slots state).Backed := by
  have hstate : (x.setDtlsState slots state).transport.dtlsState = state := by
    unfold Attached.setDtlsState
    split
    · assumption
    · rfl
  rintro (hrun | hrun)
  · exact absurd (hstate.symm.trans hrun) h.1
  · exact absurd (hstate.symm.trans hrun) h.2

theorem Backed.handleDtlsPacket (h : x.Backed) (data : Bytes) :
    (x.handleDtlsPacket A slots data).1.Backed := by
  cases hs : x.transport.dtls with
  | none =>
    unfold Attached.handleDtlsPacket
    rw [hs]
    split <;> exact h
  | some s =>
    rw [handleDtlsPacket_eq A slots hs]
    split
    · exact backed_of_isSome (streams_afterCall A slots x _ _).1
    · exact h

theorem isSome_replayClientHello (h : x.transport.dtls.isSome) :
    (x.replayClientHello A slots).transport.dtls.isSome := by
  obtain ⟨s, hs⟩ := Option.isSome_iff_exists.mp h
  rw [replayClientHello_eq A slots hs]
  split_ifs
  · exact h
  · exact (streams_afterCall A slots x _ _).1
  · simpa using h

theorem isSome_maybeStartDtls (h : x.transport.dtls.isSome) :
    (x.maybeStartDtls A slots).transport.dtls.isSome := by
  unfold maybeStartDtls
  split
  · rename_i s _ _
    have hcall := (streams_afterCall A slots x (A.startSsl s).1 (A.startSsl s).2.2).1
    dsimp only
    split
    · simpa using hcall
    · exact isSome_replayClientHello (by simpa using hcall)
  · exact h

theorem Backed.maybeStartDtls (h : x.Backed) : (x.maybeStartDtls A slots).Backed := by
  cases hs : x.transport.dtls with
  | none =>
    have hsame : x.maybeStartDtls A slots = x := by
      unfold Attached.maybeStartDtls
      rw [hs]
    rwa [hsame]
  | some s => exact backed_of_isSome (isSome_maybeStartDtls (by simp [hs]))

/-- A stream is set up before DTLS runs, so it may also fail to be created. -/
theorem backed_setupDtls (h : ¬x.Running) : (x.setupDtls A slots).1.Backed := by
  unfold setupDtls
  dsimp only
  cases A.create x.transport.created x.transport.localCertificate with
  | none => exact fun hrun => absurd hrun h
  | some ssl =>
    dsimp only
    split
    · exact backed_of_isSome (isSome_maybeStartDtls rfl)
    · exact backed_of_isSome rfl

theorem Backed.restartDtls (h : x.Backed) : (x.restartDtls A slots).1.Backed := by
  have hsetup : ∀ y : Attached σ ℓ, ¬y.Running → (if (y.setupDtls A slots).2 then y.setupDtls A slots
      else ((y.setupDtls A slots).1.setDtlsState slots .failed, false)).1.Backed := by
    intro y hy
    split
    · exact backed_setupDtls hy
    · exact backed_setDtlsState (by decide)
  unfold Attached.restartDtls
  cases hs : x.transport.dtls with
  | none => exact hsetup x fun hrun => by simpa [hs] using h hrun
  | some s =>
    apply hsetup
    intro hrun
    have hnone : (Attached.setDtlsState slots { x with transport := { x.transport with dtls := none } }
        .new).Backed := backed_setDtlsState (by decide)
    simpa using hnone hrun

theorem Backed.onReadPacket (h : x.Backed) (buf : Bytes) (ts : ℤ) : (x.onReadPacket A slots buf ts).Backed := by
  unfold Attached.onReadPacket
  cases hstate : x.transport.dtlsState with
  | new =>
    have hnew : ¬x.Running := by simp [Running, hstate]
    dsimp only
    split_ifs
    · exact backed_setupDtls hnew
    · exact h
    · exact h
  | connecting =>
    dsimp only
    split
    · exact h.handleDtlsPacket buf
    · exact h
  | connected =>
    dsimp only
    split_ifs
    · exact h.handleDtlsPacket buf
    · exact h
    · exact h
  | closed => exact h
  | failed => exact h

theorem Backed.setRemoteFingerprint (h : x.Backed) (digestAlg digest : Bytes) :
    (x.setRemoteFingerprint A slots digestAlg digest).1.Backed := by
  unfold Attached.setRemoteFingerprint
  dsimp only
  split_ifs
  · exact h
  · exact h
  · exact h
  · exact Backed.restartDtls (x := { x with transport := _ }) h
  · split
    · exact Backed.restartDtls (x := { x with transport := _ }) h
    · cases (A.setPeerCertificateDigest _ digestAlg digest).2 with
      | none => exact backed_of_isSome rfl
      | some err => exact backed_setDtlsState (by decide)

theorem Backed.onWritableState (h : x.Backed) (writable : Bool) : (x.onWritableState A slots writable).Backed := by
  unfold Attached.onWritableState
  dsimp only
  split
  · exact h
  · split
    · exact Backed.maybeStartDtls (x := { x with transport := _ }) h
    · exact h
    · exact h

theorem Backed.step (h : x.Backed) (i : Input τ) : (x.step A slots i).Backed := by
  cases i with
  | task task =>
    unfold Attached.step onTask
    dsimp only
    cases x.transport.dtls with
    | none => exact h
    | some s => exact backed_of_isSome (streams_afterCall A slots x _ _).1
  | packet buf ts => exact h.onReadPacket buf ts
  | setRemoteFingerprint digestAlg digest => exact h.setRemoteFingerprint digestAlg digest
  | setLocalCertificate cert =>
    unfold Attached.step Attached.setLocalCertificate
    dsimp only
    split
    · exact h
    · cases cert with
      | none => exact h
      | some c => exact h
  | iceWritable writable => exact h.onWritableState writable
  | iceReceiving receiving =>
    unfold Attached.step onReceivingState setReceiving
    dsimp only
    split <;> exact h

end Backed

end Attached

end Dtls
end XrtcServer
