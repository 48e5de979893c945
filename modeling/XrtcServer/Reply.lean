import Mathlib.Data.List.TakeWhile
import XrtcServer.QueryBuffer
import XrtcServer.RtcStreamManager
import XrtcServer.Xhead

/-! The reply to a signaling request: the worker builds it in a buffer of fixed size, the
Go client reads it back. -/
namespace XrtcServer
namespace Signaling
open ByteFormat StructLayout XrtcServer.Stream

def maxResBuf : ℕ := 4096

/-- Bytes of the heap from a pointer on, and how many of them are meant. -/
structure Slice where
  memory : Bytes
  size : ℕ

/-- What a reader of the slice gets. No result: it reads past the allocated memory. -/
def Slice.data (s : Slice) : Option Bytes := if s.size ≤ s.memory.length then some (s.memory.take s.size) else none

/-- A JSON text. Control characters are escaped in it. -/
structure JsonText where
  bytes : Bytes
  noNul : 0 ∉ bytes

inductive JsonValue
  | int (n : ℤ)
  | string (s : String)

/-- A header that `_process_query_buffer` lets pass. -/
structure RequestHeader where
  bytes : Bytes
  length_eq : bytes.length = xheadSize
  magic_eq : magicNum bytes = xheadMagicNum

/-- `snprintf` with the format `%s`. -/
def snprintf (mem : Bytes) (pos size : ℕ) (s : Bytes) : Bytes :=
  put mem pos ((s.takeWhile (· ≠ 0)).take (size - 1) ++ [0])

/-- A buffer as `zmalloc` gives it. -/
abbrev ResBuf := Vector UInt8 (xheadSize + maxResBuf)

/-- The end of `_process_request` and of `_response_server_offer`. -/
def makeReply (buf : ResBuf) (header : RequestHeader) (jsonData : JsonText) : Slice :=
  let bodyLen := UInt32.ofNat jsonData.bytes.length
  let mem := put buf.toList 0 header.bytes
  let mem := putUint32 mem (Xhead.offset 6) bodyLen
  let mem := snprintf mem xheadSize maxResBuf jsonData.bytes
  { memory := mem, size := (UInt32.ofNat xheadSize + bodyLen).toNat }

section Replies
variable (writeString : List (String × JsonValue) → JsonText)

/-- The members of `res_root` for the result of a request. -/
def requestResult (ret : ℤ) : List (String × JsonValue) :=
  if ret = 0 then [("err_no", .int 0), ("err_msg", .string "success")]
  else [("err_no", .int (-1)), ("err_msg", .string "process error")]

/-- The members of `res_root` for an answer of the server. -/
def serverOffer (msg : RtcMsg) : List (String × JsonValue) :=
  if msg.errNo ≠ 0 then
    [("err_no", .int msg.errNo), ("err_msg", .string "process error"), ("offer", .string "")]
  else [("err_no", .int msg.errNo), ("err_msg", .string "success"), ("offer", .string msg.sdp)]

/-- The reply of `_process_request`. -/
def processRequestReply (buf : ResBuf) (header : RequestHeader) (ret : ℤ) : Slice :=
  makeReply buf header (writeString (requestResult ret))

/-- The reply of `_response_server_offer`. -/
def responseServerOfferReply (buf : ResBuf) (header : RequestHeader) (msg : RtcMsg) : Slice :=
  makeReply buf header (writeString (serverOffer msg))

end Replies

structure Response where
  header : Header
  body : Bytes

/-- `io.ReadFull` of `n` bytes from a reader that ends after `r`. -/
def readFull (n : ℕ) (r : Bytes) : Except String (Bytes × Bytes) :=
  if n ≤ r.length then .ok (r.take n, r.drop n)
  else if r = [] then .error "EOF" else .error "unexpected EOF"

def Header.read (r : Bytes) : Except String (Header × Bytes) := do
  let (buf, r) ← readFull headerSize r
  let h ← unMarshal buf
  return (h, r)

def readResponse (r : Bytes) : Except String Response := do
  let (header, r) ← Header.read r
  if header.magicNum ≠ headerMagicnum then
    throw ("invalid magic num: " ++ String.ofList (Nat.toDigits 16 header.magicNum.toNat))
  let (body, _) ← readFull header.bodyLen.toNat r
  return { header, body }

/-- A reply with a text as its body: all of it lies in its buffer, it is the header of the
request with the length of the text, followed by the text, and the client reads the text. -/
structure Carries (header : RequestHeader) (json : JsonText) (reply : Slice) : Prop where
  inside : reply.size ≤ xheadSize + maxResBuf
  data_eq : reply.data = some (put header.bytes (Xhead.offset 6) (toLE 4 json.bytes.length) ++ json.bytes)
  read : ∀ bytes ∈ reply.data, ∃ response, readResponse bytes = .ok response ∧ response.body = json.bytes

theorem JsonText.takeWhile_eq (json : JsonText) : json.bytes.takeWhile (· ≠ 0) = json.bytes := by
  refine List.takeWhile_eq_self_iff.mpr fun b hb => ?_
  simp only [decide_eq_true_eq]
  rintro rfl
  exact json.noNul hb

/-- The header of a reply. -/
def RequestHeader.withBodyLen (header : RequestHeader) (n : ℕ) : Bytes :=
  put header.bytes (Xhead.offset 6) (toLE 4 n)

@[simp] theorem RequestHeader.withBodyLen_length (header : RequestHeader) (n : ℕ) :
    (header.withBodyLen n).length = xheadSize := by
  have h := header.length_eq
  have hoffset : Xhead.offset 6 = 32 := rfl
  rw [withBodyLen, put_length (by rw [toLE_length, h, hoffset]; decide), h]

section MakeReply
variable (buf : ResBuf) (header : RequestHeader) (json : JsonText)

/-- The buffer of a reply: as much of the text as `snprintf` has room for. -/
theorem makeReply_memory :
    ∃ rest, (makeReply buf header json).memory =
      header.withBodyLen json.bytes.length ++ (json.bytes.take (maxResBuf - 1) ++ [0]) ++ rest ∧
      (makeReply buf header json).memory.length = xheadSize + maxResBuf := by
  have hlen := header.length_eq
  have hoffset : Xhead.offset 6 = 32 := rfl
  have hsize : xheadSize = 36 := rfl
  have hmax : maxResBuf = 4096 := rfl
  have hmod : toLE 4 (UInt32.ofNat json.bytes.length).toNat = toLE 4 json.bytes.length := by
    simpa using toLE_mod 4 json.bytes.length
  have hmem : (makeReply buf header json).memory =
      header.withBodyLen json.bytes.length ++ (json.bytes.take (maxResBuf - 1) ++ [0]) ++
        (buf.toList.drop header.bytes.length).drop (json.bytes.take (maxResBuf - 1) ++ [0]).length := by
    rw [makeReply, putUint32, hmod, snprintf, json.takeWhile_eq, put_zero,
      put_append_left (by rw [toLE_length, hlen, hoffset]; decide),
      ← RequestHeader.withBodyLen, put_append (header.withBodyLen_length _)]
  refine ⟨_, hmem, ?_⟩
  rw [hmem]
  simp only [List.length_append, RequestHeader.withBodyLen_length, List.length_take, List.length_singleton,
    List.length_drop, Vector.length_toList, hlen]
  omega

theorem makeReply_size : (makeReply buf header json).size = (36 + json.bytes.length) % 2^32 := by
  simp [makeReply, xheadSize]

/-- A text that is shorter than the room for it, with its terminator, is in the reply. -/
theorem makeReply_data (h : json.bytes.length < maxResBuf) :
    (makeReply buf header json).data = some (header.withBodyLen json.bytes.length ++ json.bytes) := by
  obtain ⟨rest, hmem, hlen⟩ := makeReply_memory buf header json
  have hsize := makeReply_size buf header json
  simp only [maxResBuf, xheadSize] at h hlen
  rw [Nat.mod_eq_of_lt (by omega)] at hsize
  rw [Slice.data, if_pos (by omega), hsize, hmem, List.take_of_length_le (show json.bytes.length ≤ maxResBuf - 1 by
    simp only [maxResBuf]; omega), ← List.append_assoc, List.append_assoc _ [0], List.take_append_of_le_length (by
    simp [xheadSize]), List.take_of_length_le (by simp [xheadSize])]

/-- A longer text is cut off, or it ends with the terminator. -/
theorem length_lt_of_data
    (h : (makeReply buf header json).data = some (header.withBodyLen json.bytes.length ++ json.bytes)) :
    json.bytes.length < maxResBuf := by
  obtain ⟨rest, hmem, hlen⟩ := makeReply_memory buf header json
  by_contra hlong
  rw [Slice.data] at h
  split at h
  · have htake := Option.some.inj h
    have hle := congrArg List.length htake
    simp only [List.length_take, List.length_append, RequestHeader.withBodyLen_length] at hle
    have hexact : json.bytes.length = maxResBuf := by omega
    rw [List.take_of_length_le (by omega), hmem, List.append_assoc] at htake
    have htext := List.append_cancel_left htake
    refine json.noNul ?_
    rw [← htext]
    simp
  · simp at h

end MakeReply

theorem readFull_append {n : ℕ} {bs : Bytes} (h : bs.length = n) (rest : Bytes) :
    readFull n (bs ++ rest) = .ok (bs, rest) := by
  subst h
  simp [readFull]

/-- The magic number is the field of `xhead_t` and of `Header` alike. -/
theorem RequestHeader.magicNum_withBodyLen (header : RequestHeader) (n : ℕ) :
    uint32At (header.withBodyLen n) 24 = headerMagicnum := by
  have hoffset : Xhead.offset 6 = 32 := rfl
  have hlen : header.bytes.length = 36 := header.length_eq
  have hmagic : leNat (load header.bytes 24 4) = 0xfb202212 := header.magic_eq
  rw [uint32At, withBodyLen, load_put_before (by omega) (by omega), hmagic]
  rfl

theorem RequestHeader.bodyLen_withBodyLen (header : RequestHeader) {n : ℕ} (h : n < 2^32) :
    (uint32At (header.withBodyLen n) 32).toNat = n := by
  have hlen : header.bytes.length = 36 := header.length_eq
  have hload : load (header.withBodyLen n) 32 4 = toLE 4 n := by
    have h := @load_put header.bytes 32 (by omega) (toLE 4 n)
    rwa [toLE_length] at h
  rw [uint32At, hload, leNat_toLE_of_lt h, UInt32.toNat_ofNat_of_lt' h]

/-- The client reads what a header of the server announces. -/
theorem readResponse_reply (header : RequestHeader) {body : Bytes} (h : body.length < 2^32) :
    ∃ response, readResponse (header.withBodyLen body.length ++ body) = .ok response ∧ response.body = body := by
  have hlen := header.withBodyLen_length body.length
  have hfull : readFull headerSize (header.withBodyLen body.length ++ body) =
      .ok (header.withBodyLen body.length, body) := readFull_append hlen body
  have hunmarshal : ∃ h, Header.unMarshal (header.withBodyLen body.length) = .ok h ∧
      h.magicNum = headerMagicnum ∧ h.bodyLen.toNat = body.length := by
    rw [Header.unMarshal, if_neg (by rw [hlen]; decide)]
    exact ⟨_, rfl, header.magicNum_withBodyLen _, header.bodyLen_withBodyLen h⟩
  obtain ⟨received, hunmarshal, hmagic, hbodyLen⟩ := hunmarshal
  have hread : Header.read (header.withBodyLen body.length ++ body) = .ok (received, body) := by
    rw [Header.read, hfull]
    simp [hunmarshal, bind, Except.bind, pure, Except.pure]
  have hbody : readFull body.length body = .ok (body, []) := by
    simpa using readFull_append (rfl : body.length = body.length) []
  refine ⟨⟨received, body⟩, ?_, rfl⟩
  rw [readResponse, hread]
  simp [hmagic, hbodyLen, hbody, bind, Except.bind, pure, Except.pure]

section Claim
variable (buf : ResBuf) (header : RequestHeader) (json : JsonText)

theorem makeReply_carries_iff : Carries header json (makeReply buf header json) ↔ json.bytes.length < maxResBuf := by
  constructor
  · intro h
    exact length_lt_of_data buf header json h.data_eq
  · intro h
    have hdata := makeReply_data buf header json h
    have hsize := makeReply_size buf header json
    simp only [maxResBuf] at h
    refine ⟨?_, hdata, fun bytes hbytes => ?_⟩
    · rw [hsize]
      simp only [xheadSize, maxResBuf]
      omega
    · obtain rfl := Option.some.inj (hdata.symm.trans hbytes)
      exact readResponse_reply header (by omega)

end Claim

/-- The replies of both functions carry their JSON text exactly when it has fewer bytes
than the room for it. -/
theorem replies_carry_iff (writeString : List (String × JsonValue) → JsonText) (buf : ResBuf) (header : RequestHeader) :
    (∀ ret, Carries header (writeString (requestResult ret)) (processRequestReply writeString buf header ret) ↔
      (writeString (requestResult ret)).bytes.length < maxResBuf) ∧
    ∀ msg, Carries header (writeString (serverOffer msg)) (responseServerOfferReply writeString buf header msg) ↔
      (writeString (serverOffer msg)).bytes.length < maxResBuf :=
  ⟨fun _ => makeReply_carries_iff buf header _, fun _ => makeReply_carries_iff buf header _⟩

def offerPrefix : Bytes :=
  "\x7b\"err_msg\":\"success\",\"err_no\":0,\"offer\":\"".toList.map fun c => UInt8.ofNat c.toNat

/-- The text for an offer of so many letters. -/
def offerText (n : ℕ) : JsonText where
  bytes := offerPrefix ++ (List.replicate n 0x61 ++ [0x22, 0x7d])
  noNul := by
    simp only [List.mem_append, List.mem_replicate, not_or]
    exact ⟨by decide, fun h => absurd h.2 (by decide), by decide⟩

theorem le_offerText_length (n : ℕ) : n ≤ (offerText n).bytes.length := by
  have h : (offerText n).bytes.length = offerPrefix.length + (n + 2) := by
    rw [offerText, List.length_append, List.length_append, List.length_replicate]
    rfl
  omega

theorem offer_not_carried (buf : ResBuf) (header : RequestHeader) (msg : RtcMsg) {n : ℕ} (h : maxResBuf ≤ n) :
    ¬ Carries header (offerText n) (responseServerOfferReply (fun _ => offerText n) buf header msg) := by
  intro hcarries
  rw [responseServerOfferReply] at hcarries
  have hlt := length_lt_of_data buf header (offerText n) hcarries.data_eq
  have hle := le_offerText_length n
  omega

def plainHeader : RequestHeader where
  bytes := List.replicate 24 0 ++ [0x12, 0x22, 0x20, 0xfb] ++ List.replicate 8 0
  length_eq := rfl
  magic_eq := rfl

theorem longOffer_not_carried : ¬ Carries plainHeader (offerText 4096)
    (responseServerOfferReply (fun _ => offerText 4096) (Vector.replicate _ 0) plainHeader
      { cmdno := 1, sdp := "".pushn 'a' 4096 }) :=
  offer_not_carried _ plainHeader _ (le_refl maxResBuf)

end Signaling
end XrtcServer
