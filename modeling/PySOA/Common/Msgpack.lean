import PySOA.Lib.Assoc
import PySOA.Lib.BigEndian
import PySOA.Lib.Utf8
import PySOA.Common.Decimal
import PySOA.Common.Errors

/-! The serializer for MessagePack. The library that packs the types of MessagePack and the one for
currencies are third-party; date-times, which are converted by way of floats, are left out. -/
namespace PySOA
open Utf8 (Text)

/-- The days of a month. -/
def daysInMonth (year month : ℕ) : ℕ :=
  if month = 2 then (if year%4 = 0 ∧ (year%100 ≠ 0 ∨ year%400 = 0) then 29 else 28)
  else if month = 4 ∨ month = 6 ∨ month = 9 ∨ month = 11 then 30 else 31

/-- `datetime.date`. -/
structure Date where
  year : ℕ
  month : ℕ
  day : ℕ
  valid : 1 ≤ year ∧ year ≤ 9999 ∧ 1 ≤ month ∧ month ≤ 12 ∧ 1 ≤ day ∧ day ≤ daysInMonth year month

/-- A `datetime.time` without time zone; comparing it does not look at its fold. -/
structure Time where
  hour : ℕ
  minute : ℕ
  second : ℕ
  microsecond : ℕ
  valid : hour < 24 ∧ minute < 60 ∧ second < 60 ∧ microsecond < 1000000

/-- The currencies that the library for them knows, by the ASCII bytes of their codes, and the currency
that it finds for a code. It finds a currency by its own code; what it does with others is left open. -/
structure Currint where
  currencies : List Bytes
  fromCode : Bytes → Except Exc {code // code ∈ currencies}
  fromCode_known : ∀ code (h : code ∈ currencies), fromCode code = .ok ⟨code, h⟩
  isCode : ∀ {code}, code ∈ currencies → code.length = 3 ∧ ∀ b ∈ code, 65 ≤ b.toNat ∧ b.toNat ≤ 90

/-- `currint.Amount`. -/
structure Amount (currint : Currint) where
  code : Bytes
  known : code ∈ currint.currencies
  value : ℤ

/-- The Python objects in a message; `object` is an instance of another class. -/
inductive Datum (currint : Currint)
  | none
  | bool (b : Bool)
  | int (n : ℤ)
  | text (t : Text)
  | bytes (b : Bytes)
  | list (vs : List (Datum currint))
  | tuple (vs : List (Datum currint))
  | dict (kvs : List (Text × Datum currint))
  | date (d : Date)
  | time (t : Time)
  | decimal (d : Decimal)
  | amount (a : Amount currint)
  | object (cls : String)

/-- What MessagePack itself knows; a text is here its bytes, and so is the key of a map. -/
inductive Packed
  | nil
  | bool (b : Bool)
  | int (n : ℤ)
  | str (b : Bytes)
  | bin (b : Bytes)
  | array (ps : List Packed)
  | map (entries : List (Bytes × Packed))
  | ext (code : ℕ) (data : Bytes)

/-- The library for MessagePack, on its own types. What it packs, which excludes integers that are
too large and nesting that is too deep, it unpacks as it was. -/
structure Msgpack where
  packb : Packed → Except Exc Bytes
  unpackb : Bytes → Except Exc Packed
  unpackb_packb : ∀ {p b}, packb p = .ok b → unpackb b = .ok p

def structError (message : String) : Exc := .exception "struct.error" message

/-- An unsigned field of a `struct.Struct`. -/
def packUnsigned (width n : ℕ) : Except Exc Bytes :=
  if n < 256^width then .ok (BigEndian.bytes width n) else .error (structError "argument out of range")

/-- A signed field of a `struct.Struct`. -/
def packSigned (width : ℕ) (n : ℤ) : Except Exc Bytes :=
  if BigEndian.Fits width n then .ok (BigEndian.bytes width (BigEndian.residue width n))
  else .error (structError "argument out of range")

/-- A bytes field of a `struct.Struct`: longer bytes are cut off, shorter ones are filled up. -/
def packBytes (width : ℕ) (b : Bytes) : Bytes := b.take width ++ List.replicate (width - b.length) 0

def splitFields : List ℕ → Bytes → List Bytes
  | [], _ => []
  | width :: widths, data => data.take width :: splitFields widths (data.drop width)

/-- The fields of the data of a `struct.Struct`, which has to be as long as they are. -/
def unpackFields (widths : List ℕ) (data : Bytes) : Except Exc (List Bytes) :=
  if data.length = widths.sum then .ok (splitFields widths data)
  else .error (structError "unpack requires a buffer of another size")

/-- `datetime.date(year, month, day)`. -/
def Date.make (year month day : ℕ) : Except Exc Date :=
  if h : 1 ≤ year ∧ year ≤ 9999 ∧ 1 ≤ month ∧ month ≤ 12 ∧ 1 ≤ day ∧ day ≤ daysInMonth year month then
    .ok ⟨year, month, day, h⟩
  else .error (.valueError "date is out of range")

/-- `datetime.time(hour, minute, second, microsecond)`. -/
def Time.make (hour minute second microsecond : ℕ) : Except Exc Time :=
  if h : hour < 24 ∧ minute < 60 ∧ second < 60 ∧ microsecond < 1000000 then
    .ok ⟨hour, minute, second, microsecond, h⟩
  else .error (.valueError "time is out of range")

/-- `currint.Amount.from_code_and_minor(code, minor_value)`. -/
def Amount.fromCodeAndMinor (currint : Currint) (code : Bytes) (minorValue : ℤ) :
    Except Exc (Amount currint) :=
  (currint.fromCode code).map fun currency => ⟨currency.1, currency.2, minorValue⟩

lemma Amount.fromCodeAndMinor_of_known {currint : Currint} {code : Bytes} (h : code ∈ currint.currencies)
    (minorValue : ℤ) : fromCodeAndMinor currint code minorValue = .ok ⟨code, h, minorValue⟩ := by
  rw [fromCodeAndMinor, currint.fromCode_known code h]
  rfl

def upper (b : Bytes) : Bytes := b.map fun c => if 97 ≤ c.toNat ∧ c.toNat ≤ 122 then c - 32 else c

structure MsgpackSerializer where
  msgpack : Msgpack
  currint : Currint
  capitals : Bool := true

namespace MsgpackSerializer
variable (serializer : MsgpackSerializer)

/-- `_default`, which encodes what MessagePack does not know. -/
def default : Datum serializer.currint → Except Exc (ℕ × Bytes)
  | .date d => do
    return (3, (← packUnsigned 2 d.year) ++ (← packUnsigned 1 d.month) ++ (← packUnsigned 1 d.day))
  | .time t => do
    return (4, (← packUnsigned 1 t.hour) ++ (← packUnsigned 1 t.minute) ++
      (← packUnsigned 1 t.second) ++ (← packUnsigned 4 t.microsecond))
  | .decimal d => do
    let text := (d.toBytes serializer.capitals).take 65535
    return (5, (← packUnsigned 2 text.length) ++ packBytes text.length text)
  | .amount a => do return (2, packBytes 3 (upper a.code) ++ (← packSigned 8 a.value))
  | _ => .error (.typeError "Cannot encode value to MessagePack")

/-- `_ext_hook`, which decodes what `_default` has encoded. -/
def extHook (code : ℕ) (data : Bytes) : Except Exc (Datum serializer.currint) :=
  match code with
  | 1 | 10 => .error (.typeError "date-times are left out")
  | 3 => do
    match ← unpackFields [2, 1, 1] data with
    | [year, month, day] =>
      return .date (← Date.make (BigEndian.number year) (BigEndian.number month) (BigEndian.number day))
    | _ => throw (structError "fields")
  | 4 => do
    match ← unpackFields [1, 1, 1, 4] data with
    | [hour, minute, second, microsecond] =>
      return .time (← Time.make (BigEndian.number hour) (BigEndian.number minute)
        (BigEndian.number second) (BigEndian.number microsecond))
    | _ => throw (structError "fields")
  | 5 => do
    let length ← unpackFields [2] (data.take 2)
    let text ← unpackFields [BigEndian.number length.flatten] (data.drop 2)
    match Decimal.ofBytes text.flatten with
    | some d => return .decimal d
    | none => throw (.exception "decimal.InvalidOperation" "not a number")
  | 2 => do
    match ← unpackFields [3, 8] data with
    | [currency, minorValue] =>
      if currency.any (128 ≤ ·.toNat) then throw (.exception "UnicodeDecodeError" "ordinal not in range(128)")
      else return .amount (← Amount.fromCodeAndMinor serializer.currint currency
        (BigEndian.signed 8 (BigEndian.number minorValue)))
    | _ => throw (structError "fields")
  | _ => .error (.typeError "Cannot decode unknown extension type from MessagePack")

/-! The types of MessagePack: what `msgpack.packb` and `msgpack.unpackb` do around them with the
options that the serializer passes. -/

mutual
def pack : Datum serializer.currint → Except Exc Packed
  | .none => .ok .nil
  | .bool b => .ok (.bool b)
  | .int n => .ok (.int n)
  | .text t => .ok (.str (Utf8.encode t))
  | .bytes b => .ok (.bin b)
  | .list vs => (packAll vs).map .array
  | .tuple vs => (packAll vs).map .array
  | .dict kvs => (packEntries kvs).map .map
  | .date d => (serializer.default (.date d)).map fun ext => .ext ext.1 ext.2
  | .time t => (serializer.default (.time t)).map fun ext => .ext ext.1 ext.2
  | .decimal d => (serializer.default (.decimal d)).map fun ext => .ext ext.1 ext.2
  | .amount a => (serializer.default (.amount a)).map fun ext => .ext ext.1 ext.2
  | .object cls => (serializer.default (.object cls)).map fun ext => .ext ext.1 ext.2

def packAll : List (Datum serializer.currint) → Except Exc (List Packed)
  | [] => .ok []
  | v :: vs => do return (← pack v) :: (← packAll vs)

def packEntries : List (Text × Datum serializer.currint) → Except Exc (List (Bytes × Packed))
  | [] => .ok []
  | (t, v) :: kvs => do return (Utf8.encode t, ← pack v) :: (← packEntries kvs)
end

def decodeError : Exc := .exception "UnicodeDecodeError" "'utf-8' codec can't decode bytes"

/-- A text of a message, which is decoded strictly. -/
def decodeText (b : Bytes) : Except Exc Text :=
  match Utf8.decode b with
  | some t => .ok t
  | none => .error decodeError

mutual
def unpack : Packed → Except Exc (Datum serializer.currint)
  | .nil => .ok .none
  | .bool b => .ok (.bool b)
  | .int n => .ok (.int n)
  | .str b => (decodeText b).map .text
  | .bin b => .ok (.bytes b)
  | .array ps => (unpackAll ps).map .list
  | .map entries => (unpackEntries entries).map fun kvs => .dict (Assoc.ofPairs kvs)
  | .ext code data => serializer.extHook code data

def unpackAll : List Packed → Except Exc (List (Datum serializer.currint))
  | [] => .ok []
  | p :: ps => do return (← unpack p) :: (← unpackAll ps)

def unpackEntries : List (Bytes × Packed) → Except Exc (List (Text × Datum serializer.currint))
  | [] => .ok []
  | (b, p) :: entries => do return (← decodeText b, ← unpack p) :: (← unpackEntries entries)
end

def dictToBlob (dataDict : Datum serializer.currint) : Except Exc Bytes :=
  match dataDict with
  | .dict kvs =>
    match (serializer.pack (.dict kvs)).bind serializer.msgpack.packb with
    | .error (.exception "TypeError" message) =>
      .error (.invalidField ("Can't serialize message due to TypeError: " ++ message))
    | out => out
  | _ => .error (.valueError "Input must be a dict")

/-- The classes of `(ValueError, TypeError, msgpack.UnpackValueError, msgpack.ExtraData)` and their
subclasses that the library and decoding texts raise. -/
def unpackErrors : List String :=
  ["ValueError", "TypeError", "UnpackValueError", "ExtraData", "FormatError", "StackError",
    "UnicodeDecodeError"]

def blobToDict (blob : Bytes) : Except Exc (Datum serializer.currint) :=
  match (serializer.msgpack.unpackb blob).bind serializer.unpack with
  | .error (.exception cls message) =>
    if cls ∈ unpackErrors then
      .error (.invalidMessage ("Can't deserialize message due to " ++ cls ++ ": " ++ message))
    else .error (.exception cls message)
  | out => out

end MsgpackSerializer
end PySOA
