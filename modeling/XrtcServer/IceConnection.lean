import XrtcServer.StunRequest

/-! One ICE connection: its fields, what they say about it, and the changes that its
own methods make to them. The signals of these methods reach the channel, so the
methods themselves stand with the channel. -/
namespace XrtcServer
namespace Ice
open ByteFormat ObjectHeap Stun

def weakPingInterval : ℤ := 48
def strongPingInterval : ℤ := 480
def minPingsAtWeakPingInterval : ℕ := 3
def stablingConnectionPingInterval : ℤ := 900
def stableConnectionPingInterval : ℤ := 2500
def weakConnectionReceiveTimeout : ℤ := 2500
def connectionWriteConnectFails : ℕ := 5
def connectionWriteConnectTimeout : ℤ := 5000
def connectionWriteTimeout : ℤ := 15000
def rttRatio : ℤ := 3
def minRtt : ℤ := 100
def maxRtt : ℤ := 60000
def pingIntervalDiff : ℤ := 5
def kMinImprovement : ℤ := 10

/-- The value of a 64-bit expression that is stored in an `int`. -/
def toInt (x : ℤ) : ℤ := Int.bmod x (2^32)

structure SocketAddress where
  ip : Bytes
  port : ℕ
  deriving DecidableEq, Repr

inductive WriteState
  | writable | writeUnreliable | writeInit | writeTimeout
  deriving DecidableEq, Repr

/-- The numbers of the enumeration, which the controller compares. -/
def WriteState.toNat : WriteState → ℕ
  | .writable => 0
  | .writeUnreliable => 1
  | .writeInit => 2
  | .writeTimeout => 3

inductive IceCandidatePairState
  | waiting | inProgress | succeeded | failed
  deriving DecidableEq, Repr

structure SentPing where
  id : Bytes
  sentTime : ℤ
  deriving DecidableEq, Repr

/-- The remote candidate is its address, its priority and, in `RequestOwner`, its user
name and password. -/
structure IceConnection extends RequestOwner where
  port : ℕ
  address : SocketAddress
  remotePriority : ℕ
  writeState : WriteState := .writeInit
  receiving : Bool := false
  selected : Bool := false
  lastPingSent : ℤ := 0
  lastPingReceived : ℤ := 0
  lastPingResponseReceived : ℤ := 0
  lastDataReceived : ℤ := 0
  numPingsSent : ℕ := 0
  pingsSinceLastResponse : List SentPing := []
  rtt : ℤ := 3000
  rttSamples : ℕ := 0
  state : IceCandidatePairState := .waiting

namespace IceConnection

def writable (k : IceConnection) : Bool := k.writeState = .writable

def weak (k : IceConnection) : Bool := !(k.writable && k.receiving)

def active (k : IceConnection) : Bool := k.writeState ≠ .writeTimeout

def missResponse (k : IceConnection) (now : ℤ) : Bool :=
  match k.pingsSinceLastResponse with
  | [] => false
  | first :: _ => toInt (now - first.sentTime) > 2 * k.rtt

def stable (k : IceConnection) (now : ℤ) : Bool :=
  (k.rttSamples : ℤ) > rttRatio + 1 && !k.missResponse now

def lastReceived (k : IceConnection) : ℤ :=
  max (max k.lastPingReceived k.lastPingResponseReceived) k.lastDataReceived

/-- The new value of the flag in `update_receiving`. -/
def receivingAt (k : IceConnection) (now : ℤ) : Bool :=
  if k.lastPingSent < k.lastPingResponseReceived then true
  else k.lastReceived > 0 && now < k.lastReceived + weakConnectionReceiveTimeout

def tooManyPingFails (k : IceConnection) (maxPings : ℕ) (rtt now : ℤ) : Bool :=
  if k.pingsSinceLastResponse.length < maxPings then false
  else match k.pingsSinceLastResponse[maxPings - 1]? with
    | none => false
    | some ping => now > toInt (ping.sentTime + rtt)

def tooLongWithoutResponse (k : IceConnection) (minTime now : ℤ) : Bool :=
  match k.pingsSinceLastResponse with
  | [] => false
  | first :: _ => now > first.sentTime + minTime

/-- `IceConnection::priority`: the double of the larger priority is a 32-bit product. -/
def priority (k : IceConnection) (localPriority : ℕ) : ℕ :=
  let g := localPriority
  let d := k.remotePriority
  (min g d * 2^32 + 2 * max g d % 2^32 + if g > d then 1 else 0) % 2^64

/-- `rtc::GetNextMovingAverage` of two integers, stored in an `int`. -/
def nextMovingAverage (prevAverage cur ratio : ℤ) : ℤ :=
  (ratio * prevAverage + cur).tdiv (ratio + 1)

/-- `IceConnection::ping`. -/
def ping (k : IceConnection) (now : ℤ) (id : Bytes) : IceConnection :=
  { k with
    lastPingSent := now
    pingsSinceLastResponse := k.pingsSinceLastResponse ++ [⟨id, now⟩]
    requests := k.requests.send { id, type := stunBindingRequest, ts := now }
    state := .inProgress
    numPingsSent := k.numPingsSent + 1 }

/-- The assignments of `received_ping_response` before its first signal. -/
def recordPingResponse (k : IceConnection) (rtt now : ℤ) : IceConnection :=
  { k with
    rtt := if k.rttSamples > 0 then nextMovingAverage k.rtt rtt rttRatio else rtt
    rttSamples := k.rttSamples + 1
    lastPingResponseReceived := now
    pingsSinceLastResponse := [] }

end IceConnection

end Ice
end XrtcServer
