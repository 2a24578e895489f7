import PySOA.Common.Msgpack
import PySOA.Lib.Results

/-! Which messages the serializer for MessagePack reads back: all that it packs, but for texts with
surrogates, which are let through when packing only. -/
namespace PySOA
open Utf8 (Text)

lemma packUnsigned_of_lt {width n : ℕ} (h : n < 256^width) :
    packUnsigned width n = .ok (BigEndian.bytes width n) := if_pos h

lemma splitFields_append {width : ℕ} (widths : List ℕ) {b : Bytes} (rest : Bytes) (h : b.length = width) :
    splitFields (width :: widths) (b ++ rest) = b :: splitFields widths rest := by
  rw [splitFields, List.take_left' h, List.drop_left' h]

lemma splitFields_singleton {width : ℕ} {b : Bytes} (h : b.length = width) :
    splitFields [width] b = [b] := by
  rw [splitFields, List.take_of_length_le h.le, splitFields]

lemma Date.make_self (d : Date) : Date.make d.year d.month d.day = .ok d := dif_pos d.valid

lemma Time.make_self (t : Time) : Time.make t.hour t.minute t.second t.microsecond = .ok t :=
  dif_pos t.valid

lemma daysInMonth_le (year month : ℕ) : daysInMonth year month ≤ 31 := by
  unfold daysInMonth
  split_ifs <;> omega

namespace Datum
variable {currint : Currint}

mutual
/-- The object with its tuples turned into lists. -/
def listify : Datum currint → Datum currint
  | list vs | tuple vs => list (listifyAll vs)
  | dict kvs => dict (listifyEntries kvs)
  | v => v

def listifyAll : List (Datum currint) → List (Datum currint)
  | [] => []
  | v :: vs => listify v :: listifyAll vs

def listifyEntries : List (Text × Datum currint) → List (Text × Datum currint)
  | [] => []
  | (t, v) :: kvs => (t, listify v) :: listifyEntries kvs
end

mutual
/-- No text of the object, and no key of a dict, has a surrogate. -/
def surrogateFree : Datum currint → Bool
  | text t => !t.any Utf8.isSurrogate
  | list vs | tuple vs => surrogateFreeAll vs
  | dict kvs => surrogateFreeEntries kvs
  | _ => true

def surrogateFreeAll : List (Datum currint) → Bool
  | [] => true
  | v :: vs => surrogateFree v && surrogateFreeAll vs

def surrogateFreeEntries : List (Text × Datum currint) → Bool
  | [] => true
  | (t, v) :: kvs => !t.any Utf8.isSurrogate && surrogateFree v && surrogateFreeEntries kvs
end

mutual
/-- The keys of each dict are distinct, and no text of a decimal is cut off. -/
def wellFormed (capitals : Bool) : Datum currint → Bool
  | decimal d => (d.toBytes capitals).length ≤ 65535
  | list vs | tuple vs => wellFormedAll capitals vs
  | dict kvs => (kvs.map Prod.fst).Nodup && wellFormedEntries capitals kvs
  | _ => true

def wellFormedAll (capitals : Bool) : List (Datum currint) → Bool
  | [] => true
  | v :: vs => wellFormed capitals v && wellFormedAll capitals vs

def wellFormedEntries (capitals : Bool) : List (Text × Datum currint) → Bool
  | [] => true
  | (_, v) :: kvs => wellFormed capitals v && wellFormedEntries capitals kvs
end

lemma map_fst_listifyEntries (kvs : List (Text × Datum currint)) :
    (listifyEntries kvs).map Prod.fst = kvs.map Prod.fst := by
  induction kvs with
  | nil => rfl
  | cons kv kvs ih => rw [listifyEntries, List.map_cons, List.map_cons, ih]

end Datum

lemma Date.fits (d : Date) : d.year < 256^2 ∧ d.month < 256^1 ∧ d.day < 256^1 := by
  obtain ⟨-, hyear, -, hmonth, -, hday⟩ := d.valid
  have hdays := daysInMonth_le d.year d.month
  omega

lemma Time.fits (t : Time) :
    t.hour < 256^1 ∧ t.minute < 256^1 ∧ t.second < 256^1 ∧ t.microsecond < 256^4 := by
  obtain ⟨hhour, hminute, hsecond, hmicrosecond⟩ := t.valid
  omega

namespace MsgpackSerializer
variable {serializer : MsgpackSerializer}

lemma default_date (d : Date) : serializer.default (.date d) =
    .ok (3, BigEndian.bytes 2 d.year ++ BigEndian.bytes 1 d.month ++ BigEndian.bytes 1 d.day) := by
  obtain ⟨hyear, hmonth, hday⟩ := d.fits
  rw [default, packUnsigned_of_lt hyear, packUnsigned_of_lt hmonth, packUnsigned_of_lt hday]
  rfl

lemma default_time (t : Time) : serializer.default (.time t) =
    .ok (4, BigEndian.bytes 1 t.hour ++ BigEndian.bytes 1 t.minute ++ BigEndian.bytes 1 t.second ++
      BigEndian.bytes 4 t.microsecond) := by
  obtain ⟨hhour, hminute, hsecond, hmicrosecond⟩ := t.fits
  rw [default, packUnsigned_of_lt hhour, packUnsigned_of_lt hminute, packUnsigned_of_lt hsecond,
    packUnsigned_of_lt hmicrosecond]
  rfl

lemma extHook_date {d : Date} {code : ℕ} {data : Bytes}
    (h : serializer.default (.date d) = .ok (code, data)) :
    serializer.extHook code data = .ok (.date d) := by
  obtain ⟨hyear, hmonth, hday⟩ := d.fits
  rw [default_date] at h
  cases h
  have hfields : unpackFields [2, 1, 1] (BigEndian.bytes 2 d.year ++ BigEndian.bytes 1 d.month ++
      BigEndian.bytes 1 d.day) =
      .ok [BigEndian.bytes 2 d.year, BigEndian.bytes 1 d.month, BigEndian.bytes 1 d.day] := by
    rw [unpackFields, if_pos (by simp), List.append_assoc,
      splitFields_append _ _ (BigEndian.length_bytes 2 _),
      splitFields_append _ _ (BigEndian.length_bytes 1 _),
      splitFields_singleton (BigEndian.length_bytes 1 _)]
  unfold extHook
  simp only [hfields, BigEndian.number_bytes hyear, BigEndian.number_bytes hmonth,
    BigEndian.number_bytes hday, Date.make_self, bind, Except.bind, pure, Except.pure]

lemma extHook_time {t : Time} {code : ℕ} {data : Bytes}
    (h : serializer.default (.time t) = .ok (code, data)) :
    serializer.extHook code data = .ok (.time t) := by
  obtain ⟨hhour, hminute, hsecond, hmicrosecond⟩ := t.fits
  rw [default_time] at h
  cases h
  have hfields : unpackFields [1, 1, 1, 4] (BigEndian.bytes 1 t.hour ++ BigEndian.bytes 1 t.minute ++
      BigEndian.bytes 1 t.second ++ BigEndian.bytes 4 t.microsecond) =
      .ok [BigEndian.bytes 1 t.hour, BigEndian.bytes 1 t.minute, BigEndian.bytes 1 t.second,
        BigEndian.bytes 4 t.microsecond] := by
    rw [unpackFields, if_pos (by simp), List.append_assoc, List.append_assoc,
      splitFields_append _ _ (BigEndian.length_bytes 1 _),
      splitFields_append _ _ (BigEndian.length_bytes 1 _),
      splitFields_append _ _ (BigEndian.length_bytes 1 _),
      splitFields_singleton (BigEndian.length_bytes 4 _)]
  unfold extHook
  simp only [hfields, BigEndian.number_bytes hhour, BigEndian.number_bytes hminute,
    BigEndian.number_bytes hsecond, BigEndian.number_bytes hmicrosecond, Time.make_self, bind,
    Except.bind, pure, Except.pure]

/-- A decimal comes back if its text is not cut off. -/
lemma extHook_decimal {d : Decimal} {code : ℕ} {data : Bytes}
    (h : serializer.default (.decimal d) = .ok (code, data))
    (hlength : (d.toBytes serializer.capitals).length ≤ 65535) :
    serializer.extHook code data = .ok (.decimal d) := by
  have hlt : (d.toBytes serializer.capitals).length < 256^2 := by omega
  rw [default, List.take_of_length_le hlength] at h
  rw [packUnsigned_of_lt hlt] at h
  have hread := Decimal.ofBytes_toBytes serializer.capitals d
  generalize d.toBytes serializer.capitals = text at *
  have htext : packBytes text.length text = text := by simp [packBytes]
  rw [htext] at h
  cases h
  have hhead : unpackFields [2] ((BigEndian.bytes 2 text.length ++ text).take 2) =
      .ok [BigEndian.bytes 2 text.length] := by
    rw [List.take_left' (BigEndian.length_bytes 2 _), unpackFields, if_pos (by simp),
      splitFields_singleton (BigEndian.length_bytes 2 _)]
  have hrest : unpackFields [text.length] ((BigEndian.bytes 2 text.length ++ text).drop 2) =
      .ok [text] := by
    rw [List.drop_left' (BigEndian.length_bytes 2 _), unpackFields, if_pos (by simp),
      splitFields_singleton rfl]
  unfold extHook
  simp only [hhead, List.flatten_singleton, BigEndian.number_bytes hlt, hrest, hread, bind, Except.bind,
    pure, Except.pure]

lemma upper_of_mem_currencies {code : Bytes} (h : code ∈ serializer.currint.currencies) :
    upper code = code := by
  have hcode := (serializer.currint.isCode h).2
  unfold upper
  conv_rhs => rw [← List.map_id code]
  apply List.map_congr_left
  intro c hc
  exact if_neg fun hlower => by have := hcode c hc; omega

lemma extHook_amount {a : Amount serializer.currint} {code : ℕ} {data : Bytes}
    (h : serializer.default (.amount a) = .ok (code, data)) :
    serializer.extHook code data = .ok (.amount a) := by
  obtain ⟨currency, hknown, value⟩ := a
  obtain ⟨hlength, hascii⟩ := serializer.currint.isCode hknown
  rw [default, upper_of_mem_currencies hknown] at h
  dsimp only at h
  by_cases hfits : BigEndian.Fits 8 value
  · have hcurrency : packBytes 3 currency = currency := by simp [packBytes, hlength, List.take_of_length_le]
    rw [packSigned, if_pos hfits, hcurrency] at h
    cases h
    have hfields : unpackFields [3, 8] (currency ++ BigEndian.bytes 8 (BigEndian.residue 8 value)) =
        .ok [currency, BigEndian.bytes 8 (BigEndian.residue 8 value)] := by
      rw [unpackFields, if_pos (by simp [hlength]), splitFields_append _ _ hlength,
        splitFields_singleton (BigEndian.length_bytes 8 _)]
    have hany : currency.any (128 ≤ ·.toNat) = false := by
      rw [List.any_eq_false]
      intro b hb
      have := hascii b hb
      simp only [decide_eq_true_eq]
      omega
    have hvalue : BigEndian.signed 8 (BigEndian.number
        (BigEndian.bytes 8 (BigEndian.residue 8 value))) = value := by
      rw [BigEndian.number_bytes (BigEndian.residue_lt 8 value), BigEndian.signed_residue hfits]
    unfold extHook
    simp only [hfields, hany, hvalue, Amount.fromCodeAndMinor_of_known hknown, bind, Except.bind, pure,
      Except.pure, Bool.false_eq_true, if_false]
  · rw [packSigned, if_neg hfits] at h
    cases h

lemma decodeText_encode (t : Text) :
    decodeText (Utf8.encode t) = if !t.any Utf8.isSurrogate then .ok t else .error decodeError := by
  rw [decodeText, Utf8.decode_encode]
  cases t.any Utf8.isSurrogate <;> rfl

/-- An object that the extension types keep comes back from what they make of it. -/
lemma unpack_of_default {v : Datum serializer.currint} {p : Packed}
    (hext : ∀ code data, serializer.default v = .ok (code, data) → serializer.extHook code data = .ok v)
    (h : ((serializer.default v).map fun ext => Packed.ext ext.1 ext.2) = .ok p) :
    serializer.unpack p = .ok v := by
  obtain ⟨⟨code, data⟩, hdefault, rfl⟩ := Results.map_eq_ok.mp h
  rw [unpack]
  exact hext code data hdefault

/-- Results that are both there, or else fail in the same way. -/
lemma bind_ite {α β γ : Type} (a b : Bool) (x : α) (y : β) (f : α → β → γ) (e : Exc) :
    ((if a then Except.ok x else .error e) >>= fun x => (if b then Except.ok y else .error e) >>= fun y =>
      pure (f x y)) = if a && b then .ok (f x y) else .error e := by
  cases a <;> cases b <;> rfl

mutual
/-- What is packed is unpacked with its tuples turned into lists, unless a text in it cannot be
decoded. -/
theorem unpack_of_pack (v : Datum serializer.currint) {p : Packed} (h : serializer.pack v = .ok p)
    (hv : v.wellFormed serializer.capitals = true) :
    serializer.unpack p = if v.surrogateFree then .ok v.listify else .error decodeError := by
  cases v with
  | none =>
    cases h
    rfl
  | bool b =>
    cases h
    rfl
  | int n =>
    cases h
    rfl
  | bytes b =>
    cases h
    rfl
  | text t =>
    cases h
    have hfree : (Datum.text t : Datum serializer.currint).surrogateFree = !t.any Utf8.isSurrogate := by
      simp only [Datum.surrogateFree]
    rw [unpack, decodeText_encode, hfree]
    split_ifs
    · simp only [Datum.listify, Except.map]
    · rfl
  | list vs =>
    obtain ⟨ps, hps, rfl⟩ := Results.map_eq_ok.mp (by rwa [pack] at h)
    rw [unpack, unpackAll_of_packAll vs hps hv, Datum.surrogateFree, Datum.listify]
    split_ifs <;> rfl
  | tuple vs =>
    obtain ⟨ps, hps, rfl⟩ := Results.map_eq_ok.mp (by rwa [pack] at h)
    rw [unpack, unpackAll_of_packAll vs hps hv, Datum.surrogateFree, Datum.listify]
    split_ifs <;> rfl
  | dict kvs =>
    obtain ⟨entries, hentries, rfl⟩ := Results.map_eq_ok.mp (by rwa [pack] at h)
    rw [Datum.wellFormed, Bool.and_eq_true, decide_eq_true_eq, ← Datum.map_fst_listifyEntries] at hv
    rw [unpack, unpackEntries_of_packEntries kvs hentries hv.2, Datum.surrogateFree, Datum.listify]
    split_ifs
    · rw [Except.map, Assoc.ofPairs_of_nodup hv.1]
    · rfl
  | date d => exact unpack_of_default (fun _ _ => extHook_date) (by rwa [pack] at h)
  | time t => exact unpack_of_default (fun _ _ => extHook_time) (by rwa [pack] at h)
  | decimal d =>
    have hlength : (d.toBytes serializer.capitals).length ≤ 65535 := of_decide_eq_true hv
    exact unpack_of_default (fun _ _ hdefault => extHook_decimal hdefault hlength) (by rwa [pack] at h)
  | amount a => exact unpack_of_default (fun _ _ => extHook_amount) (by rwa [pack] at h)
  | object cls => cases h

theorem unpackAll_of_packAll (vs : List (Datum serializer.currint)) {ps : List Packed}
    (h : serializer.packAll vs = .ok ps) (hvs : Datum.wellFormedAll serializer.capitals vs = true) :
    serializer.unpackAll ps =
      if Datum.surrogateFreeAll vs then .ok (Datum.listifyAll vs) else .error decodeError := by
  cases vs with
  | nil =>
    cases h
    rfl
  | cons v vs =>
    rw [Datum.wellFormedAll, Bool.and_eq_true] at hvs
    rw [packAll] at h
    obtain ⟨p, hp, h⟩ := Results.bind_eq_ok.mp h
    obtain ⟨ps, hps, h⟩ := Results.bind_eq_ok.mp h
    cases h
    rw [unpackAll, unpack_of_pack v hp hvs.1, unpackAll_of_packAll vs hps hvs.2, bind_ite]
    rfl

theorem unpackEntries_of_packEntries (kvs : List (Text × Datum serializer.currint))
    {entries : List (Bytes × Packed)} (h : serializer.packEntries kvs = .ok entries)
    (hkvs : Datum.wellFormedEntries serializer.capitals kvs = true) :
    serializer.unpackEntries entries =
      if Datum.surrogateFreeEntries kvs then .ok (Datum.listifyEntries kvs) else .error decodeError := by
  cases kvs with
  | nil =>
    cases h
    rfl
  | cons kv kvs =>
    obtain ⟨t, v⟩ := kv
    rw [Datum.wellFormedEntries, Bool.and_eq_true] at hkvs
    rw [packEntries] at h
    obtain ⟨p, hp, h⟩ := Results.bind_eq_ok.mp h
    obtain ⟨ps, hps, h⟩ := Results.bind_eq_ok.mp h
    cases h
    rw [unpackEntries, unpack_of_pack v hp hkvs.1, unpackEntries_of_packEntries kvs hps hkvs.2,
      decodeText_encode, Datum.surrogateFreeEntries, Datum.listifyEntries]
    cases (!t.any Utf8.isSurrogate)
    · rfl
    · exact bind_ite _ _ _ _ (fun v kvs => (t, v) :: kvs) _
end

lemma exists_packed_of_dictToBlob {v : Datum serializer.currint} {blob : Bytes}
    (h : serializer.dictToBlob v = .ok blob) :
    ∃ p, serializer.pack v = .ok p ∧ serializer.msgpack.packb p = .ok blob := by
  cases v with
  | dict kvs =>
    unfold dictToBlob at h
    dsimp only at h
    split at h
    · cases h
    · exact Results.bind_eq_ok.mp h
  | _ => cases h

/-- What the serializer accepts it reads back, or it cannot decode the message. -/
theorem blobToDict_of_dictToBlob {v : Datum serializer.currint} {blob : Bytes}
    (hv : v.wellFormed serializer.capitals = true) (h : serializer.dictToBlob v = .ok blob) :
    serializer.blobToDict blob =
      if v.surrogateFree then .ok v.listify
      else .error (.invalidMessage ("Can't deserialize message due to UnicodeDecodeError: " ++
        "'utf-8' codec can't decode bytes")) := by
  obtain ⟨p, hpack, hpackb⟩ := exists_packed_of_dictToBlob h
  have hread : (serializer.msgpack.unpackb blob).bind serializer.unpack =
      if v.surrogateFree then .ok v.listify else .error decodeError := by
    rw [serializer.msgpack.unpackb_packb hpackb, Except.bind, unpack_of_pack v hpack hv]
  rw [blobToDict, hread]
  split_ifs with hfree
  · rfl
  · rfl

/-- If the serializer accepts the object, reading the blob gives it back with its tuples turned
into lists. -/
def RoundTrips (serializer : MsgpackSerializer) (v : Datum serializer.currint) : Prop :=
  ∀ blob, serializer.dictToBlob v = .ok blob → serializer.blobToDict blob = .ok v.listify

/-- A dict that is accepted comes back exactly if none of its texts has a surrogate. -/
theorem roundTrips_iff {v : Datum serializer.currint} {blob : Bytes}
    (hv : v.wellFormed serializer.capitals = true) (haccepted : serializer.dictToBlob v = .ok blob) :
    serializer.RoundTrips v ↔ v.surrogateFree = true := by
  constructor
  · intro h
    have hread := h blob haccepted
    rw [blobToDict_of_dictToBlob hv haccepted] at hread
    by_contra hfree
    rw [if_neg hfree] at hread
    cases hread
  · intro hfree blob' haccepted'
    rw [blobToDict_of_dictToBlob hv haccepted', if_pos hfree]

end MsgpackSerializer

/-- Packs a map of one entry whose key and value are texts of less than 32 bytes. -/
def packText : Packed → Except Exc Bytes
  | .map [(k, .str b)] =>
    if k.length < 32 ∧ b.length < 32 then
      .ok (0x81 :: UInt8.ofNat (0xA0 + k.length) :: (k ++ UInt8.ofNat (0xA0 + b.length) :: b))
    else .error (.exception "NotImplementedError" "")
  | _ => .error (.exception "NotImplementedError" "")

def unpackText : Bytes → Except Exc Packed
  | 0x81 :: n :: data =>
    .ok (.map [(data.take (n.toNat - 0xA0), .str (data.drop (n.toNat - 0xA0 + 1)))])
  | _ => .error (.exception "NotImplementedError" "")

/-- MessagePack on dicts of one short text. -/
def textMsgpack : Msgpack where
  packb := packText
  unpackb := unpackText
  unpackb_packb := by
    intro p blob h
    unfold packText at h
    split at h
    · next k b =>
      split_ifs at h with hlength
      cases h
      have hkey : (UInt8.ofNat (0xA0 + k.length)).toNat - 0xA0 = k.length := by
        rw [Utf8.toNat_ofNat (by omega)]
        omega
      have hdrop : ∀ c, (k ++ c :: b).drop (k.length+1) = b := fun c => by
        rw [List.append_cons, List.drop_left' (by simp)]
      rw [unpackText, hkey, List.take_left' rfl, hdrop]
    · cases h

/-- The currencies are the euro and the US dollar. Their codes may be in lower case. -/
def exampleCurrint : Currint where
  currencies := [ascii "EUR", ascii "USD"]
  fromCode code :=
    if h : upper code ∈ [ascii "EUR", ascii "USD"] then .ok ⟨upper code, h⟩
    else .error (.valueError "Invalid currency code")
  fromCode_known code h := by
    have hupper : upper code = code := by
      rcases List.mem_pair.mp h with rfl | rfl <;> decide +kernel
    have hknown : upper code ∈ [ascii "EUR", ascii "USD"] := by rwa [hupper]
    rw [dif_pos hknown]
    simp only [hupper]
  isCode := by decide +kernel

def textSerializer : MsgpackSerializer where
  msgpack := textMsgpack
  currint := exampleCurrint

/-- A message with a text under the key `v`. -/
def textMessage (t : Text) : Datum exampleCurrint := .dict [([118], .text t)]

/-- `value` and a space, and the same with a lone surrogate behind it. -/
def plainText : Text := [118, 97, 108, 117, 101, 32]

def surrogateText : Text := plainText ++ [0xD83D]

/-- The blob of the message whose text ends in a surrogate. -/
def surrogateBlob : Bytes :=
  [0x81, 0xA1, 118, 0xA9, 118, 97, 108, 117, 101, 32, 0xED, 0xA0, 0xBD]

namespace MsgpackSerializer

theorem roundTrips_iff_plainText : textSerializer.RoundTrips (textMessage plainText) := by
  have haccepted : textSerializer.dictToBlob (textMessage plainText) =
      .ok [0x81, 0xA1, 118, 0xA6, 118, 97, 108, 117, 101, 32] := by rfl
  have hv : (textMessage plainText).wellFormed true = true := by decide
  exact (roundTrips_iff hv haccepted).mpr (by decide)

/-- A lone surrogate is packed and then cannot be unpacked. -/
theorem not_roundTrips_surrogateText :
    (textMessage surrogateText).wellFormed true = true ∧
      textSerializer.dictToBlob (textMessage surrogateText) = .ok surrogateBlob ∧
        ¬textSerializer.RoundTrips (textMessage surrogateText) := by
  have haccepted : textSerializer.dictToBlob (textMessage surrogateText) = .ok surrogateBlob := by rfl
  refine ⟨by decide, haccepted, fun h => ?_⟩
  have hread := h _ haccepted
  cases hread

end MsgpackSerializer
end PySOA
