import Mathlib.Data.Nat.Init
import XrtcServer.Substrings

/-! The functions on strings that descriptions are read and written with, and the fingerprints in
them. -/
namespace XrtcServer
namespace Sdp

/-- The characters of a string. -/
abbrev Text := List Char

/-- How reading stops: with the result -1, or with the exception of `substr`. -/
inductive Failure
  | error
  | outOfRange
  deriving DecidableEq

/-- Whether `find` finds the pattern. -/
def found (line : Text) (pattern : String) : Bool := decide (pattern.toList <:+: line)

def substr (source : Text) (pos : ℕ) : Except Failure Text :=
  if source.length < pos then .error .outOfRange else .ok (source.drop pos)

/-- `rtc::split`. -/
def split (source : Text) (delimiter : Char) : List Text := source.splitOn delimiter

/-- `rtc::tokenize`: empty fields are left out. -/
def tokenize (source : Text) (delimiter : Char) : List Text := (split source delimiter).filter (· ≠ [])

/-- `rtc::tokenize_first`: the first field, and the rest without the delimiters before it. -/
def tokenizeFirst (source : Text) (delimiter : Char) : Option (Text × Text) :=
  if delimiter ∈ source then
    some (source.takeWhile (· ≠ delimiter), (source.dropWhile (· ≠ delimiter)).dropWhile (· = delimiter))
  else none

/-- `rtc::FromString` for 32 bit numbers, which reads up to a NUL. A negative number is none, but
for zero. -/
def fromString (s : Text) : Option UInt32 :=
  let str := s.takeWhile (· ≠ '\x00')
  let digits := if str.head? = some '-' then str.tail else str
  if digits = [] ∨ ¬ digits.all Char.isDigit then none
  else
    let value := Nat.ofDigitChars 10 digits 0
    if value ≠ 0 ∧ str.head? = some '-' then none
    else if value > 4294967295 then none
    else some (UInt32.ofNat value)

/-- `atoi`, for a number that fits. -/
def atoi (s : Text) : ℤ :=
  let value (digits : Text) : ℤ := Nat.ofDigitChars 10 (digits.takeWhile Char.isDigit) 0
  match s.dropWhile Char.isWhitespace with
  | '-' :: digits => - value digits
  | '+' :: digits => value digits
  | digits => value digits

/-- A number as a stream writes it. -/
def decimal (n : ℤ) : Text := if n < 0 then '-' :: Nat.toDigits 10 n.natAbs else Nat.toDigits 10 n.natAbs

/-- A digit as `hex_encode` and `toupper` write it. -/
def hexEncode (n : ℕ) : Char := ("0123456789ABCDEF".toList)[n]?.getD '!'

def hexDecode (ch : Char) : Option ℕ :=
  if '0' ≤ ch ∧ ch ≤ '9' then some (ch.toNat - 48)
  else if 'A' ≤ ch ∧ ch ≤ 'F' then some (ch.toNat - 65 + 10)
  else if 'a' ≤ ch ∧ ch ≤ 'f' then some (ch.toNat - 97 + 10)
  else none

def hexEncodeByte (b : UInt8) : Text := [hexEncode (b.toNat / 16), hexEncode (b.toNat % 16)]

/-- `hex_encode_with_delimiter` with a colon. -/
def hexEncodeWithDelimiter : List UInt8 → Text
  | [] => []
  | [b] => hexEncodeByte b
  | b :: bs => hexEncodeByte b ++ ':' :: hexEncodeWithDelimiter bs

def hexDecodeByte (h1 h2 : Char) : Option UInt8 := do
  let h1 ← hexDecode h1
  let h2 ← hexDecode h2
  return UInt8.ofNat (h1 * 16 + h2)

/-- The loop of `hex_decode_with_delimiter` with a colon. -/
def hexDecodeLoop : Text → Option (List UInt8)
  | [] => some []
  | [_] => none
  | [h1, h2] => (hexDecodeByte h1 h2).map ([·])
  | [_, _, _] => none
  | h1 :: h2 :: delimiter :: ch :: rest =>
    if delimiter ≠ ':' then none
    else do
      let b ← hexDecodeByte h1 h2
      let bs ← hexDecodeLoop (ch :: rest)
      return b :: bs

/-- No bytes stand for a failure. -/
def hexDecodeWithDelimiter (buflen : ℕ) (source : Text) : List UInt8 :=
  if buflen < (source.length + 1) / 3 then [] else (hexDecodeLoop source).getD []

/-- The largest digest has 64 bytes. -/
def kMaxSize : ℕ := 64

def isFips180DigestAlgorithm (alg : String) : Bool :=
  alg ∈ ["sha-1", "sha-224", "sha-256", "sha-384", "sha-512"]

structure SSLFingerprint where
  algorithm : String
  digest : List UInt8
  deriving DecidableEq

namespace SSLFingerprint

def createUniqueFromRfc4572 (algorithm fingerprint : Text) : Option SSLFingerprint :=
  if algorithm = [] ∨ ¬ isFips180DigestAlgorithm (String.ofList algorithm) then none
  else if fingerprint = [] then none
  else
    let value := hexDecodeWithDelimiter kMaxSize fingerprint
    if value = [] then none else some ⟨String.ofList algorithm, value⟩

def getRfc4572Fingerprint (fp : SSLFingerprint) : Text := hexEncodeWithDelimiter fp.digest

end SSLFingerprint

end Sdp
end XrtcServer
