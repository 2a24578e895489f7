import PySOA.Common.Errors

/-! The versions of the Redis gateway protocol and what marks them on the wire. -/
namespace PySOA

/-- `MINIMUM_CHUNKED_MESSAGE_BYTES`. -/
def minimumChunkedMessageBytes : ℤ := 1024*100

lemma dropPrefix?_eq_some {p s r : Bytes} : s.dropPrefix? p = some r ↔ s = p ++ r := by
  rw [List.dropPrefix?_eq_some_iff]
  simp

inductive ProtocolVersion
  | version1
  | version2
  | version3
  deriving DecidableEq, Repr

namespace ProtocolVersion

def value : ProtocolVersion → ℕ
  | version1 => 1
  | version2 => 2
  | version3 => 3

/-- `ProtocolVersion(n)`; `none` is a `ValueError`. -/
def ofValue? : ℕ → Option ProtocolVersion
  | 1 => some version1
  | 2 => some version2
  | 3 => some version3
  | _ => none

/-- The `prefix` property: the marker of a version. -/
def prefixBytes (v : ProtocolVersion) : Bytes :=
  ascii "pysoa-redis/" ++ Bytes.decimal v.value ++ ascii "//"

/-- `PROTOCOL_VERSION_RE.match`: the digits of the version and what follows the marker. -/
def matchVersion (messageData : Bytes) : Option (Bytes × Bytes) := do
  let b ← messageData.dropPrefix? (ascii "pysoa-redis/")
  let version := b.takeWhile Bytes.isDigit
  guard (version ≠ [])
  let rest ← (b.dropWhile Bytes.isDigit).dropPrefix? (ascii "//")
  return (version, rest)

def extractVersion (messageData : Bytes) : Except Exc (ProtocolVersion × Bytes) :=
  match matchVersion messageData with
  | some (version, rest) =>
    match ofValue? (Bytes.digitsValue version) with
    | some v => .ok (v, rest)
    | none => .error (.valueError (toString (Bytes.digitsValue version) ++ " is not a valid ProtocolVersion"))
  | none =>
    if (ascii "content-type").isPrefixOf messageData then .ok (version2, messageData)
    else .ok (version1, messageData)

/-- The marker of a version is read back as that version, whatever follows it. -/
theorem extractVersion_prefixBytes (v : ProtocolVersion) (rest : Bytes) :
    extractVersion (v.prefixBytes ++ rest) = .ok (v, rest) := by
  have hd : ∀ (n : UInt8), Bytes.isDigit n = true →
      matchVersion (ascii "pysoa-redis/" ++ [n] ++ ascii "//" ++ rest) = some ([n], rest) := by
    intro n hn
    have hslash : Bytes.isDigit 47 = false := by decide
    have hp : (ascii "pysoa-redis/" ++ [n] ++ ascii "//" ++ rest).dropPrefix? (ascii "pysoa-redis/") =
        some (n :: 47 :: 47 :: rest) := by
      rw [dropPrefix?_eq_some]
      simp [show ascii "//" = [47,47] from rfl]
    have hs : ((n :: 47 :: 47 :: rest).dropWhile Bytes.isDigit).dropPrefix? (ascii "//") = some rest := by
      rw [dropPrefix?_eq_some]
      simp [hn, hslash, show ascii "//" = [47,47] from rfl]
    simp only [matchVersion, hp, bind, Option.bind_some, hs]
    simp [hn, hslash, guard]
  cases v with
  | version1 =>
    have h : (version1.prefixBytes ++ rest) = ascii "pysoa-redis/" ++ [49] ++ ascii "//" ++ rest := rfl
    rw [extractVersion, h, hd 49 (by decide)]
    rfl
  | version2 =>
    have h : (version2.prefixBytes ++ rest) = ascii "pysoa-redis/" ++ [50] ++ ascii "//" ++ rest := rfl
    rw [extractVersion, h, hd 50 (by decide)]
    rfl
  | version3 =>
    have h : (version3.prefixBytes ++ rest) = ascii "pysoa-redis/" ++ [51] ++ ascii "//" ++ rest := rfl
    rw [extractVersion, h, hd 51 (by decide)]
    rfl

end ProtocolVersion

inductive ProtocolFeature
  | contentTypeHeader
  | versionMarker
  | chunkedResponses
  deriving DecidableEq, Repr

namespace ProtocolFeature

/-- The version in which a feature is first supported. -/
def firstVersion : ProtocolFeature → ProtocolVersion
  | contentTypeHeader => .version2
  | versionMarker => .version3
  | chunkedResponses => .version3

def supportedIn (feature : ProtocolFeature) (version : ProtocolVersion) : Bool :=
  feature.firstVersion.value ≤ version.value

end ProtocolFeature
end PySOA
