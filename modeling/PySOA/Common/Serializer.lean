import PySOA.Common.Errors

/-! Serializers and the table that finds them by MIME type. -/
namespace PySOA

/-- A serializer. The MIME type is kept as its UTF-8 encoding; the two conversions are those
of a third-party library. -/
structure Serializer where
  mimeType : Bytes
  dictToBlob : Value → Except Exc Bytes
  blobToDict : Bytes → Except Exc Value

/-- The classes that `Serializer.resolve_serializer` knows, each under its own MIME type. -/
structure SerializerMap where
  resolve? : Bytes → Option Serializer
  resolve?_mimeType : ∀ {m s}, resolve? m = some s → s.mimeType = m

/-- The map that knows the serializers of a list; of two with one MIME type the first counts. -/
def SerializerMap.ofList (ss : List Serializer) : SerializerMap where
  resolve? m := ss.find? (fun s => s.mimeType = m)
  resolve?_mimeType h := by simpa using List.find?_some h

/-! Plain messages, on which `JSONSerializer` is written out: texts that need no escape, whole
numbers, and lists and dicts of these. -/
namespace PlainJson

/-- The printable ASCII characters other than the quotation mark and the backslash. -/
def plain (c : Char) : Bool := 32 ≤ c.toNat && c.toNat < 127 && c ≠ '"' && c ≠ '\\'

def text (s : String) : Option Bytes :=
  if s.toList.all plain then some (34 :: ascii s ++ [34]) else none

def int (n : ℤ) : Bytes := if n < 0 then 45 :: Bytes.decimal n.natAbs else Bytes.decimal n.natAbs

lemma text_of_plain {s : String} (h : s.toList.all plain = true) :
    text s = some (34 :: ascii s ++ [34]) := by
  simp [text, h]

mutual
def dumps : Value → Option Bytes
  | .none => some (ascii "null")
  | .bool b => some (ascii (if b then "true" else "false"))
  | .int n => some (int n)
  | .float q => if q.den = 1 then some (int q.num ++ ascii ".0") else none
  | .text s => text s
  | .list [] => some (ascii "[]")
  | .list (v :: vs) => do return ascii "[" ++ (← dumps v) ++ (← items vs) ++ ascii "]"
  | .dict [] => some (ascii "\x7b\x7d")
  | .dict ((key, v) :: kvs) => do
    return ascii "\x7b" ++ (← text key.toText) ++ ascii ": " ++ (← dumps v) ++ (← entries kvs) ++
      ascii "\x7d"
  | _ => none

def items : List Value → Option Bytes
  | [] => some []
  | v :: vs => do return ascii ", " ++ (← dumps v) ++ (← items vs)

def entries : List (Key × Value) → Option Bytes
  | [] => some []
  | (key, v) :: kvs => do
    return ascii ", " ++ (← text key.toText) ++ ascii ": " ++ (← dumps v) ++ (← entries kvs)
end

/-- `JSONSerializer` on plain messages. It reads back the blobs of the messages of a list. -/
def serializer (messages : List Value) : Serializer where
  mimeType := ascii "application/json"
  dictToBlob message :=
    match dumps message with
    | some blob => .ok blob
    | none => .error (.invalidField "Can't serialize message")
  blobToDict blob :=
    match messages.find? (fun message => dumps message = some blob) with
    | some message => .ok message
    | none => .error (.invalidMessage "Can't deserialize message")

/-- Messages that are written differently are read back. -/
theorem blobToDict_serializer {messages : List Value} {message : Value} {blob : Bytes}
    (hmessages : (messages.map dumps).Nodup) (hmem : message ∈ messages)
    (hblob : dumps message = some blob) : (serializer messages).blobToDict blob = .ok message := by
  have hfind : messages.find? (fun m => dumps m = some blob) = some message := by
    induction messages with
    | nil => cases hmem
    | cons m messages ih =>
      rw [List.map_cons, List.nodup_cons] at hmessages
      obtain rfl | hmem := List.mem_cons.mp hmem
      · simp [hblob]
      · have hne : dumps m ≠ some blob := fun heq =>
          hmessages.1 (List.mem_map.mpr ⟨message, hmem, hblob.trans heq.symm⟩)
        rw [List.find?_cons_of_neg (by simpa using hne), ih hmessages.2 hmem]
  simp [serializer, hfind]

end PlainJson
end PySOA
