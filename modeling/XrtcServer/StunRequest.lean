import XrtcServer.StunAuthentication
import XrtcServer.ObjectHeap
import XrtcServer.Runs
import Mathlib.Data.List.AList

/-! The STUN requests of one ICE connection: `StunRequestManager` with the requests
it was handed, and the part of `IceConnection` that sends pings, receives packets
and owns the manager. -/
namespace XrtcServer
namespace Stun
open ByteFormat ObjectHeap

structure StunRequest where
  id : Bytes
  type : ℕ
  ts : ℤ
  deriving DecidableEq, Repr

/-- Accesses that the language leaves undefined. -/
inductive RequestFault
  | requestUsed (request : ℕ)
  | requestDeletedAgain (request : ℕ)
  | managerUsed
  deriving DecidableEq, Repr

/-- `requests` is the map of the manager. The requests it was handed live in
`memory`; `alive` turns false when the owner of the manager is deleted. -/
structure StunRequestManager where
  memory : Heap StunRequest := {}
  requests : AList (fun _ : Bytes => ℕ) := ∅
  alive : Bool := true
  faults : List RequestFault := []

namespace StunRequestManager

/-- `StunRequestManager::send` with a new request that has drawn its id. -/
def send (m : StunRequestManager) (request : StunRequest) : StunRequestManager :=
  { m with
    memory := m.memory.alloc request
    requests := m.requests.insert request.id m.memory.size }

/-- `StunRequestManager::remove`, called by a request about itself. -/
def remove (m : StunRequestManager) (i : ℕ) : StunRequestManager :=
  match m.memory.get? i with
  | some request => { m with requests := m.requests.erase request.id }
  | none => m

/-- `delete request`: its destructor takes it out of the map of its manager. On a
deleted request the destructor reads freed memory, and calls into the manager. -/
def deleteRequest (m : StunRequestManager) (i : ℕ) : StunRequestManager :=
  if m.memory.Alive i then
    let m := m.remove i
    { m with memory := m.memory.free i }
  else
    let faults := .requestDeletedAgain i :: if m.alive then m.faults else .managerUsed :: m.faults
    { m with memory := m.memory.free i, faults }

/-- `StunRequestManager::~StunRequestManager`: each request is taken out of the map
before it is deleted. -/
def destroy (m : StunRequestManager) : StunRequestManager :=
  { m with
    memory := m.requests.entries.foldl (fun memory entry => memory.free entry.2) m.memory
    requests := ∅
    alive := false }

/-- A virtual call on a request. -/
def use (m : StunRequestManager) (i : ℕ) : StunRequestManager :=
  if m.memory.Alive i then m else { m with faults := .requestUsed i :: m.faults }

end StunRequestManager

/-- The errors after which the pings go on. -/
def maybeRecovers (errorCode : ℕ) : Bool :=
  errorCode = stunErrorUnauthorized ∨ errorCode = stunErrorUnknownAttribute ∨
    errorCode = stunErrorServerError

/-- Which handler `check_response` has called. -/
inductive ResponseHandler
  | unmatched
  | requestResponse (request : StunRequest)
  | requestErrorResponse
  | failAndDestroy
  | wrongType
  deriving DecidableEq

/-- `StunRequestManager::check_response`. The handler of an error response destroys
the connection, and so the manager, while the call is still running. -/
def StunRequestManager.checkResponse (m : StunRequestManager) (msg : StunMessage) :
    StunRequestManager × ResponseHandler :=
  match m.requests.lookup msg.transactionId with
  | none => (m, .unmatched)
  | some i =>
    match m.memory.get? i with
    | none => (m, .unmatched)
    | some request =>
      let m := m.use i
      if (msg.type : ℤ) = getStunSuccessResponse request.type then
        (m.deleteRequest i, .requestResponse request)
      else if (msg.type : ℤ) = getStunErrorResponse request.type then
        if maybeRecovers msg.getErrorCodeValue then (m.deleteRequest i, .requestErrorResponse)
        else (m.destroy.deleteRequest i, .failAndDestroy)
      else (m.deleteRequest i, .wrongType)

/-- The part of an ICE connection that its requests depend on: the credentials of
the peer, and the manager that is its member. -/
structure RequestOwner where
  remote : IceParameters
  requests : StunRequestManager := {}

/-- What happens to an ICE connection, with the id that a ping draws at random. -/
inductive ConnectionEvent
  | ping (id : Bytes) (now : ℤ)
  | packet (data : Bytes)
  | setRemoteIceParams (params : IceParameters)
  | destroy

/-- `IceConnection::maybe_set_remote_ice_params`. -/
def maybeSetRemoteIceParams (remote params : IceParameters) : IceParameters :=
  if remote.iceUfrag = params.iceUfrag ∧ remote.icePwd = [] then
    { remote with icePwd := params.icePwd }
  else remote

section Connection
variable (hmac : Bytes → Bytes → Bytes) (beyond : ℕ → UInt8) (params : IceParameters)

/-- Of what `on_read_packet` does, only `check_response` concerns the requests. -/
def RequestOwner.receive (c : RequestOwner) (data : Bytes) : RequestOwner :=
  match onReadPacket hmac beyond params c.remote data with
  | .checkResponse msg => { c with requests := (c.requests.checkResponse msg).1 }
  | _ => c

/-- One event of a connection; a destroyed connection has none. -/
def RequestOwner.step (c : RequestOwner) (e : ConnectionEvent) : RequestOwner :=
  if c.requests.alive then
    match e with
    | .ping id now =>
      { c with requests := c.requests.send { id, type := stunBindingRequest, ts := now } }
    | .packet data => c.receive hmac beyond params data
    | .setRemoteIceParams p => { c with remote := maybeSetRemoteIceParams c.remote p }
    | .destroy => { c with requests := c.requests.destroy }
  else c

end Connection

namespace StunRequestManager

/-- The map of the manager has the request. -/
def Holds (m : StunRequestManager) (i : ℕ) : Prop := ∃ id, m.requests.lookup id = some i

/-- Every request is held and not deleted, or deleted once and no longer held; none is
held by a manager that is gone; and no deleted object was touched. -/
structure DeletesOnce (m : StunRequestManager) : Prop where
  owned : ∀ i < m.memory.size, m.Holds i ∧ m.memory.deletions i = 0 ∨
    ¬m.Holds i ∧ m.memory.deletions i = 1
  gone : m.alive = false → ∀ i < m.memory.size, m.memory.deletions i = 1
  noFault : m.faults = []

end StunRequestManager

/-- A ping draws an id that no pending request has, and no accepted error response
carries the id of a pending request. -/
def PingsFreshAndUnrefused (hmac : Bytes → Bytes → Bytes) (beyond : ℕ → UInt8)
    (params : IceParameters) (c : RequestOwner) (e : ConnectionEvent) : Prop :=
  c.requests.alive = true →
  match e with
  | .ping id _ => id ∉ c.requests.requests
  | .packet data => ∀ msg, onReadPacket hmac beyond params c.remote data = .checkResponse msg →
    msg.type = stunBindingErrorResponse → msg.transactionId ∉ c.requests.requests
  | _ => True

namespace StunRequestManager

/-- The map has the requests under their own ids, and they are binding requests. -/
def Keyed (m : StunRequestManager) : Prop :=
  ∀ id i, m.requests.lookup id = some i →
    ∃ request, m.memory.get? i = some request ∧ request.id = id ∧
      request.type = stunBindingRequest

theorem keyed_empty : ({} : StunRequestManager).Keyed := by
  intro id i h
  simp at h

theorem Keyed.lt_size {m : StunRequestManager} (h : m.Keyed) {id : Bytes} {i : ℕ}
    (hi : m.requests.lookup id = some i) : i < m.memory.size := by
  obtain ⟨r, hr, -⟩ := h id i hi
  exact Heap.lt_of_get? hr

theorem Keyed.send {m : StunRequestManager} (h : m.Keyed) {request : StunRequest}
    (ht : request.type = stunBindingRequest) : (m.send request).Keyed := by
  intro id i hi
  by_cases hid : id = request.id
  · subst hid
    obtain rfl : m.memory.size = i := by simpa [StunRequestManager.send] using hi
    exact ⟨request, by simp [StunRequestManager.send, Heap.get?_alloc], rfl, ht⟩
  · have hold : m.requests.lookup id = some i := by
      simpa [StunRequestManager.send, AList.lookup_insert_ne hid] using hi
    obtain ⟨r, hr, hrest⟩ := h id i hold
    have hne : i ≠ m.memory.size := Nat.ne_of_lt (h.lt_size hold)
    exact ⟨r, by simp [StunRequestManager.send, Heap.get?_alloc, hne, hr], hrest⟩

theorem Keyed.erase {m : StunRequestManager} (h : m.Keyed) {id : Bytes} :
    ({ m with requests := m.requests.erase id } : StunRequestManager).Keyed := by
  intro id' i hi
  by_cases hid : id' = id
  · subst hid
    simp [AList.lookup_erase] at hi
  · exact h id' i (by simpa [AList.lookup_erase_ne hid] using hi)

theorem Keyed.deleteRequest {m : StunRequestManager} (h : m.Keyed) (i : ℕ) :
    (m.deleteRequest i).Keyed := by
  unfold StunRequestManager.deleteRequest
  split_ifs
  · unfold remove
    cases m.memory.get? i with
    | none => exact h
    | some request => exact h.erase
  · exact h
  · exact h

theorem Keyed.use {m : StunRequestManager} (h : m.Keyed) (i : ℕ) : (m.use i).Keyed := by
  unfold StunRequestManager.use
  split_ifs <;> exact h

theorem keyed_destroy (m : StunRequestManager) : m.destroy.Keyed := by
  intro id i h
  simp [StunRequestManager.destroy] at h

theorem Keyed.checkResponse {m : StunRequestManager} (h : m.Keyed) (msg : StunMessage) :
    (m.checkResponse msg).1.Keyed := by
  unfold StunRequestManager.checkResponse
  cases m.requests.lookup msg.transactionId with
  | none => exact h
  | some i =>
    dsimp only
    cases m.memory.get? i with
    | none => exact h
    | some request =>
      dsimp only
      split_ifs
      · exact (h.use i).deleteRequest i
      · exact (h.use i).deleteRequest i
      · exact (keyed_destroy _).deleteRequest i
      · exact (h.use i).deleteRequest i

/-- What the manager keeps while nothing goes wrong. -/
structure Sound (m : StunRequestManager) : Prop extends DeletesOnce m where
  keyed : m.Keyed
  bounded : ∀ i ∈ m.memory.freed, i < m.memory.size

theorem Sound.alive_of_lookup {m : StunRequestManager} (h : m.Sound) {id : Bytes} {i : ℕ}
    (hi : m.requests.lookup id = some i) : m.memory.Alive i := by
  obtain ⟨request, hr, -⟩ := h.keyed id i hi
  have hlt := Heap.lt_of_get? hr
  rcases h.owned i hlt with ⟨-, hz⟩ | ⟨hn, -⟩
  · exact ⟨hlt, List.count_eq_zero.mp hz⟩
  · exact absurd ⟨id, hi⟩ hn

/-- A request stands in the map under its own id only. -/
theorem Sound.lookup_unique {m : StunRequestManager} (h : m.Sound) {id id' : Bytes} {i : ℕ}
    (hi : m.requests.lookup id = some i) (hi' : m.requests.lookup id' = some i) : id = id' := by
  obtain ⟨r, hr, hid, -⟩ := h.keyed id i hi
  obtain ⟨r', hr', hid', -⟩ := h.keyed id' i hi'
  obtain rfl : r = r' := Option.some.inj (hr.symm.trans hr')
  rw [← hid, hid']

theorem sound_empty : ({} : StunRequestManager).Sound where
  owned i hi := absurd hi (Nat.not_lt_zero i)
  gone h := by cases h
  noFault := rfl
  keyed := keyed_empty
  bounded i hi := by simp at hi

/-- Sending a request with a fresh id. -/
theorem Sound.send {m : StunRequestManager} (h : m.Sound) {request : StunRequest}
    (ht : request.type = stunBindingRequest) (hfresh : request.id ∉ m.requests)
    (halive : m.alive = true) : (m.send request).Sound := by
  have hnone : m.requests.lookup request.id = none := AList.lookup_eq_none.mpr hfresh
  have hlookup : ∀ id i, (m.send request).requests.lookup id = some i ↔
      id = request.id ∧ i = m.memory.size ∨ m.requests.lookup id = some i := by
    intro id i
    by_cases hid : id = request.id
    · subst hid
      simp [StunRequestManager.send, hnone, eq_comm]
    · simp [StunRequestManager.send, AList.lookup_insert_ne hid, hid]
  refine ⟨⟨fun i hi => ?_, fun hg => ?_, h.noFault⟩, h.keyed.send ht, fun i hi => ?_⟩
  · have hle : i < m.memory.size + 1 := by simpa [StunRequestManager.send] using hi
    by_cases hnew : i = m.memory.size
    · left
      refine ⟨⟨request.id, (hlookup _ _).mpr (Or.inl ⟨rfl, hnew⟩)⟩, ?_⟩
      apply List.count_eq_zero.mpr
      intro hm
      exact absurd (h.bounded i hm) (by omega)
    · have hhold : (m.send request).Holds i ↔ m.Holds i := by
        refine exists_congr fun id => ?_
        rw [hlookup]
        exact ⟨fun hh => hh.resolve_left fun hn => hnew hn.2, Or.inr⟩
      rw [hhold]
      exact h.owned i (by omega)
  · rw [show (m.send request).alive = m.alive from rfl, halive] at hg
    cases hg
  · have hb := h.bounded i hi
    simp only [StunRequestManager.send, Heap.size_alloc]
    omega

/-- Deleting a request that the map holds. -/
theorem Sound.deleteRequest {m : StunRequestManager} (h : m.Sound) {id : Bytes} {i : ℕ}
    (hi : m.requests.lookup id = some i) (halive : m.alive = true) :
    (m.deleteRequest i).Sound := by
  obtain ⟨request, hr, hid, -⟩ := h.keyed id i hi
  have ha := h.alive_of_lookup hi
  have heq : m.deleteRequest i =
      { m with memory := m.memory.free i, requests := m.requests.erase id } := by
    simp [StunRequestManager.deleteRequest, ha, StunRequestManager.remove, hr, hid]
  have hlookup : ∀ id' j, (m.requests.erase id).lookup id' = some j ↔
      m.requests.lookup id' = some j ∧ j ≠ i := by
    intro id' j
    by_cases hk : id' = id
    · subst hk
      rw [AList.lookup_erase, hi]
      simp [eq_comm]
    · rw [AList.lookup_erase_ne hk]
      refine ⟨fun hj => ⟨hj, fun he => hk (h.lookup_unique (he ▸ hj) hi)⟩, fun hj => hj.1⟩
  have hhold : ∀ j, (m.deleteRequest i).Holds j ↔ m.Holds j ∧ j ≠ i := by
    intro j
    simp only [Holds, heq, hlookup, exists_and_right]
  refine ⟨⟨fun j hj => ?_, fun hg => ?_, by rw [heq]; exact h.noFault⟩,
    h.keyed.deleteRequest i, fun j hj => ?_⟩
  · rw [heq] at hj
    rw [hhold, heq]
    by_cases hji : j = i
    · subst hji
      right
      refine ⟨fun hn => hn.2 rfl, ?_⟩
      have hz := Heap.deletions_eq_zero ha
      simp only [Heap.deletions, Heap.freed_free, List.count_cons_self] at hz ⊢
      omega
    · have hc : (m.memory.free i).deletions j = m.memory.deletions j := by
        simp [Heap.deletions, Ne.symm hji]
      simpa [hji, hc] using h.owned j hj
  · rw [heq] at hg
    exact absurd hg (by simp [halive])
  · rw [heq] at hj ⊢
    rcases List.mem_cons.mp hj with rfl | hj'
    · exact ha.1
    · exact h.bounded j hj'

theorem freed_foldl (entries : List (Sigma fun _ : Bytes => ℕ)) (memory : Heap StunRequest) :
    (entries.foldl (fun memory entry => memory.free entry.2) memory) =
      { memory with freed := (entries.map Sigma.snd).reverse ++ memory.freed } := by
  induction entries generalizing memory with
  | nil => rfl
  | cons entry entries ih =>
    rw [List.foldl_cons, ih]
    simp [Heap.free]

theorem mem_values {m : StunRequestManager} {i : ℕ} :
    i ∈ m.requests.entries.map Sigma.snd ↔ m.Holds i := by
  simp only [List.mem_map, Holds, Sigma.exists]
  refine exists_congr fun id => ?_
  rw [exists_eq_right]
  exact AList.mem_lookup_iff.symm

/-- No request stands twice in the map. -/
theorem Sound.values_nodup {m : StunRequestManager} (h : m.Sound) :
    (m.requests.entries.map Sigma.snd).Nodup := by
  have hn : m.requests.entries.Nodup := m.requests.nodupKeys.nodup
  refine hn.map_on ?_
  rintro ⟨id, i⟩ he ⟨id', i'⟩ he' (rfl : i = i')
  obtain rfl := h.lookup_unique (AList.mem_lookup_iff.mpr he) (AList.mem_lookup_iff.mpr he')
  rfl

/-- Destroying the manager deletes what the map holds. -/
theorem Sound.destroy {m : StunRequestManager} (h : m.Sound) : m.destroy.Sound := by
  have hmem : m.destroy.memory =
      { m.memory with freed := (m.requests.entries.map Sigma.snd).reverse ++ m.memory.freed } :=
    freed_foldl _ _
  have hnone : ∀ i, ¬m.destroy.Holds i := by
    rintro i ⟨id, hi⟩
    simp [StunRequestManager.destroy] at hi
  have hone : ∀ i < m.destroy.memory.size, m.destroy.memory.deletions i = 1 := by
    intro i hi
    rw [hmem] at hi ⊢
    have hcount : (m.requests.entries.map Sigma.snd).count i + m.memory.deletions i = 1 := by
      rcases h.owned i hi with ⟨hh, hz⟩ | ⟨hh, ho⟩
      · rw [List.count_eq_one_of_mem h.values_nodup (mem_values.mpr hh), hz]
      · rw [List.count_eq_zero_of_not_mem fun hm => hh (mem_values.mp hm), ho]
    simpa [Heap.deletions] using hcount
  refine ⟨⟨fun i hi => Or.inr ⟨hnone i, hone i hi⟩, fun _ => hone, h.noFault⟩,
    keyed_destroy m, fun i hi => ?_⟩
  rw [hmem] at hi ⊢
  simp only [List.mem_append, List.mem_reverse] at hi
  rcases hi with hv | hf
  · obtain ⟨id, hid⟩ := mem_values.mp hv
    exact (h.alive_of_lookup hid).1
  · exact h.bounded i hf

theorem Sound.use_eq {m : StunRequestManager} (h : m.Sound) {id : Bytes} {i : ℕ}
    (hi : m.requests.lookup id = some i) : m.use i = m := by
  simp [use, h.alive_of_lookup hi]

/-- A response to a pending request deletes it, whatever handler runs, unless the
handler is the one that destroys the connection. -/
theorem Sound.checkResponse {m : StunRequestManager} (h : m.Sound) (halive : m.alive = true)
    (msg : StunMessage)
    (hmsg : msg.transactionId ∈ m.requests → msg.type = stunBindingErrorResponse →
      maybeRecovers msg.getErrorCodeValue = true) : (m.checkResponse msg).1.Sound := by
  unfold StunRequestManager.checkResponse
  cases hi : m.requests.lookup msg.transactionId with
  | none => exact h
  | some i =>
    obtain ⟨request, hr, -, ht⟩ := h.keyed _ i hi
    have hin : msg.transactionId ∈ m.requests := AList.lookup_isSome.mp (by simp [hi])
    simp only [hr, h.use_eq hi, ht, getStunSuccessResponse_request, getStunErrorResponse_request,
      Nat.cast_inj]
    split_ifs with hsucc herr hrec
    · exact h.deleteRequest hi halive
    · exact h.deleteRequest hi halive
    · exact absurd (hmsg hin herr) hrec
    · exact h.deleteRequest hi halive

/-- The handler that destroys the connection leaves a request that is deleted again. -/
theorem faults_of_destroyed {m : StunRequestManager} (h : m.Sound) {msg : StunMessage}
    (hin : msg.transactionId ∈ m.requests) (ht : msg.type = stunBindingErrorResponse)
    (hrec : maybeRecovers msg.getErrorCodeValue = false) :
    (m.checkResponse msg).1.faults ≠ [] := by
  obtain ⟨i, hi⟩ := Option.isSome_iff_exists.mp (AList.lookup_isSome.mpr hin)
  obtain ⟨request, hr, -, hreq⟩ := h.keyed _ i hi
  have hdead : ¬m.destroy.memory.Alive i := by
    intro ha
    have hlt := (h.alive_of_lookup hi).1
    have hone := h.destroy.gone rfl i ha.1
    rw [Heap.deletions_eq_zero ha] at hone
    cases hone
  unfold StunRequestManager.checkResponse
  simp only [hi, hr, h.use_eq hi, hreq, ht, getStunSuccessResponse_request,
    getStunErrorResponse_request, hrec, Bool.false_eq_true, if_false, if_true, Nat.cast_inj]
  rw [if_neg (by decide)]
  simp [deleteRequest, hdead]

/-- Sending under the id of a pending request loses the pending one. -/
theorem not_deletesOnce_send {m : StunRequestManager} (h : m.Sound) {request : StunRequest}
    (hin : request.id ∈ m.requests) : ¬(m.send request).DeletesOnce := by
  intro hd
  obtain ⟨i, hi⟩ := Option.isSome_iff_exists.mp (AList.lookup_isSome.mpr hin)
  have ha := h.alive_of_lookup hi
  have hlt : i < (m.send request).memory.size := by
    have := ha.1
    simp only [StunRequestManager.send, Heap.size_alloc]
    omega
  have hne : i ≠ m.memory.size := Nat.ne_of_lt ha.1
  rcases hd.owned i hlt with ⟨⟨id, hid⟩, -⟩ | ⟨-, hone⟩
  · by_cases hk : id = request.id
    · subst hk
      simp [StunRequestManager.send, eq_comm] at hid
      exact hne hid
    · simp only [StunRequestManager.send, AList.lookup_insert_ne hk] at hid
      exact hk (h.lookup_unique hid hi)
  · have hz := Heap.deletions_eq_zero ha
    simp only [StunRequestManager.send, Heap.deletions, Heap.freed_alloc] at hone hz
    omega

end StunRequestManager

section Connection
variable {hmac : Bytes → Bytes → Bytes} {beyond : ℕ → UInt8} {params : IceParameters}

theorem AcceptedAttribute.type_ne_errorCode {body rest : Bytes} {attr : StunAttribute}
    {relaxed : Bool} (h : AcceptedAttribute body (some attr) rest relaxed) :
    attr.type ≠ stunAttrErrorCode := by
  have hstring : ∀ type, getAttributeValueType type = .byteString → type ≠ stunAttrErrorCode := by
    rintro type ht rfl
    cases ht
  cases h with
  | string hv _ _ => exact hstring _ hv
  | unpadded hv _ _ => exact hstring _ hv
  | priority _ _ =>
    show stunAttrPriority ≠ stunAttrErrorCode
    decide

theorem AcceptedBody.type_ne_errorCode {body : Bytes} {attrs : List StunAttribute}
    {relaxed : Bool} (h : AcceptedBody body attrs relaxed) :
    ∀ attr ∈ attrs, attr.type ≠ stunAttrErrorCode := by
  induction h with
  | done => simp
  | more ha _ ih =>
    intro attr hattr
    rcases List.mem_append.mp hattr with hm | hm
    · rw [Option.mem_toList] at hm
      exact (hm ▸ ha).type_ne_errorCode
    · exact ih attr hm

/-- The reader keeps no ERROR-CODE attribute, so a message it has read always reports a
global failure. -/
theorem getErrorCodeValue_of_read {data : Bytes} {msg : StunMessage}
    (h : StunMessage.read data = some msg) : msg.getErrorCodeValue = stunErrorGlobalFailure := by
  obtain ⟨relaxed, hb⟩ := acceptedBody_of_read h
  have hnone : msg.getAttribute stunAttrErrorCode = none :=
    List.find?_eq_none.mpr fun attr hm => by simpa using hb.type_ne_errorCode attr hm
  simp [StunMessage.getErrorCodeValue, hnone]

theorem receive_eq {c : RequestOwner} {data : Bytes} {msg : StunMessage}
    (h : onReadPacket hmac beyond params c.remote data = .checkResponse msg) :
    c.receive hmac beyond params data =
      { c with requests := (c.requests.checkResponse msg).1 } := by
  rw [RequestOwner.receive, h]

theorem receive_other {c : RequestOwner} {data : Bytes}
    (h : ∀ msg, onReadPacket hmac beyond params c.remote data ≠ .checkResponse msg) :
    c.receive hmac beyond params data = c := by
  unfold RequestOwner.receive
  split
  · rename_i msg ha
    exact absurd ha (h msg)
  · rfl

/-- An allowed event keeps the requests sound. -/
theorem sound_step {c : RequestOwner} (h : c.requests.Sound) {e : ConnectionEvent}
    (hC : PingsFreshAndUnrefused hmac beyond params c e) :
    (c.step hmac beyond params e).requests.Sound := by
  unfold RequestOwner.step
  by_cases halive : c.requests.alive = true
  · have hcond := hC halive
    rw [if_pos halive]
    cases e with
    | ping id now => exact h.send rfl hcond halive
    | packet data =>
      by_cases ha : ∃ msg, onReadPacket hmac beyond params c.remote data = .checkResponse msg
      · obtain ⟨msg, ha⟩ := ha
        simp only [receive_eq ha]
        exact h.checkResponse halive msg fun hin ht => absurd hin (hcond msg ha ht)
      · simp only [receive_other fun msg hm => ha ⟨msg, hm⟩]
        exact h
    | setRemoteIceParams p => exact h
    | destroy => exact h.destroy
  · rw [if_neg halive]
    exact h

/-- Any other event loses a request or touches a deleted one. -/
theorem not_deletesOnce_step {c : RequestOwner} (h : c.requests.Sound) {e : ConnectionEvent}
    (hC : ¬PingsFreshAndUnrefused hmac beyond params c e) :
    ¬(c.step hmac beyond params e).requests.DeletesOnce := by
  unfold PingsFreshAndUnrefused at hC
  obtain ⟨halive, hcond⟩ := Classical.not_imp.mp hC
  unfold RequestOwner.step
  rw [if_pos halive]
  cases e with
  | ping id now => exact StunRequestManager.not_deletesOnce_send h (not_not.mp hcond)
  | packet data =>
    obtain ⟨msg, hm⟩ := not_forall.mp hcond
    obtain ⟨ha, hm⟩ := Classical.not_imp.mp hm
    obtain ⟨ht, hin⟩ := Classical.not_imp.mp hm
    have hr := (onReadPacket_checkResponse.mp ha).2.1
    have hrec : maybeRecovers msg.getErrorCodeValue = false := by
      rw [getErrorCodeValue_of_read hr]
      decide
    simp only [receive_eq ha]
    exact fun hd => StunRequestManager.faults_of_destroyed h (not_not.mp hin) ht hrec hd.noFault
  | setRemoteIceParams p => exact absurd trivial hcond
  | destroy => exact absurd trivial hcond

end Connection

/-- Along every run of a new connection, its requests are deleted once and nothing
deleted is touched exactly as long as every ping draws a fresh id and no error response
to a pending ping is accepted. -/
theorem requests_deleted_once_iff (hmac : Bytes → Bytes → Bytes) (beyond : ℕ → UInt8)
    (params remote : IceParameters) (es : List ConnectionEvent) :
    Runs.AllAfter (RequestOwner.step hmac beyond params) (fun c => c.requests.DeletesOnce)
      { remote } es ↔
    Runs.Along (RequestOwner.step hmac beyond params)
      (PingsFreshAndUnrefused hmac beyond params) { remote } es := by
  have hstep : ∀ c e, c.requests.Sound → PingsFreshAndUnrefused hmac beyond params c e →
      (c.step hmac beyond params e).requests.Sound := fun c e h hC => sound_step h hC
  refine Runs.along_iff hstep (fun c e h => ⟨fun hd => ?_, fun hC => ?_⟩)
    StunRequestManager.sound_empty es
  · by_contra hC
    exact not_deletesOnce_step h hC hd
  · exact (sound_step h hC).toDeletesOnce

/-- An error response 487 to the pending ping whose id is 1, 2, .., 12. -/
def roleConflictResponse : Bytes :=
  [1, 17, 0, 40, 33, 18, 164, 66, 1, 2, 3, 4, 5, 6, 7, 8, 9, 10, 11, 12,
    0, 9, 0, 4, 0, 0, 4, 87,
    0, 8, 0, 20, 69, 250, 29, 75, 99, 30, 139, 59, 217, 150, 162, 201, 188, 173, 220, 163, 112,
    157, 176, 184, 128, 40, 0, 4, 223, 136, 192, 61]

def conflictPeer : IceParameters where
  iceUfrag := [119, 120, 121, 122]
  icePwd := [112, 101, 101, 114, 112, 101, 101, 114, 112, 101, 101, 114, 112, 101, 101, 114, 112,
    101, 101, 114, 112, 101]

/-- HMAC-SHA1 at the one input that the response needs. -/
def conflictHmac (password data : Bytes) : Bytes :=
  if password = conflictPeer.icePwd ∧ data = prefixEndingAt roleConflictResponse 28 then
    [69, 250, 29, 75, 99, 30, 139, 59, 217, 150, 162, 201, 188, 173, 220, 163, 112, 157, 176, 184]
  else []

def conflictMessage : StunMessage where
  type := stunBindingErrorResponse
  length := 40
  transactionId := [1, 2, 3, 4, 5, 6, 7, 8, 9, 10, 11, 12]
  attrs := [⟨stunAttrMessageIntegrity, 20,
    .byteString ((roleConflictResponse.drop 32).take 20)⟩]
  buffer := roleConflictResponse

theorem fingerprint_roleConflict : validateFingerprint roleConflictResponse = true := by
  have hcrc : computeCrc32 (roleConflictResponse.take 52) = 0x73236a8c ^^^ 0xFFFFFFFF := by
    have hparts : roleConflictResponse.take 52 = roleConflictResponse.take 13 ++
        (roleConflictResponse.drop 13).take 13 ++ (roleConflictResponse.drop 26).take 13 ++
        (roleConflictResponse.drop 39).take 13 := by decide +kernel
    rw [hparts]
    exact computeCrc32_four (show _ = 0x3d63100a by decide +kernel)
      (show _ = 0xf52ab8a7 by decide +kernel) (show _ = 0x7f4a8dbe by decide +kernel)
      (by decide +kernel)
  have hlen : roleConflictResponse.length - 8 = 52 := by decide
  simp only [validateFingerprint, hlen, hcrc]
  decide +kernel

/-- A ping and the error response to it. -/
theorem roleConflict_deletes_again :
    ¬Runs.AllAfter (RequestOwner.step conflictHmac (fun _ => 0) ⟨[97, 98, 99, 100], []⟩)
      (fun c => c.requests.DeletesOnce) { remote := conflictPeer }
      [.ping [1, 2, 3, 4, 5, 6, 7, 8, 9, 10, 11, 12] 1000, .packet roleConflictResponse] := by
  rintro ⟨hping, hresp, -⟩
  have hsound : (RequestOwner.step conflictHmac (fun _ => 0) ⟨[97, 98, 99, 100], []⟩
      { remote := conflictPeer } (.ping [1, 2, 3, 4, 5, 6, 7, 8, 9, 10, 11, 12] 1000)).requests.Sound :=
    sound_step StunRequestManager.sound_empty fun _ => AList.notMem_empty _
  have haction : onReadPacket conflictHmac (fun _ => 0) ⟨[97, 98, 99, 100], []⟩ conflictPeer
      roleConflictResponse = .checkResponse conflictMessage :=
    onReadPacket_checkResponse.mpr
      ⟨fingerprint_roleConflict, by decide +kernel, Or.inr rfl, by decide +kernel⟩
  refine not_deletesOnce_step hsound (fun hC => ?_) hresp
  exact hC rfl conflictMessage haction rfl (by decide)

end Stun
end XrtcServer
