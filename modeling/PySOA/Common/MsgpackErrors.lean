import PySOA.Common.MsgpackRoundTrip

/-! How packing fails: the walk over a message in the order in which the library packs it, with the
errors of the library and of the hook for other types. -/
namespace PySOA
open Utf8 (Text)

/-- A `datetime.datetime`: whether it has no time zone, UTC or another one, and the number of
microseconds since the epoch that the conversion by way of floats comes to. The years 1 to 9999 keep
it within 64 bits. -/
structure DateTime where
  zone : Option Bool
  microseconds : ℤ
  fits : BigEndian.Fits 8 microseconds

/-- A value that is packed. The keys of a dict are values as well. A decimal is here its text; an
object of an unsupported type has the result of writing it out, which can fail. -/
inductive Item (currint : Currint)
  | none
  | bool (b : Bool)
  | int (n : ℤ)
  | float (q : ℚ)
  | text (t : Text)
  | bytes (b : Bytes)
  | list (vs : List (Item currint))
  | tuple (vs : List (Item currint))
  | dict (entries : List (Item currint × Item currint))
  | datetime (d : DateTime)
  | date (d : Date)
  | time (t : Time)
  | decimal (text : Bytes)
  | amount (a : Amount currint)
  | object (cls : String) (str : Except Exc String)

/-- The packer of the library: how it writes what it packs, how deep it goes and what a list and a dict
count for in that, how long texts and containers may be, and whether an integer that is out of range is
handed to the hook first. A dict counts twice where the packer is written in Python. -/
structure Packer where
  nil : Bytes
  bool : Bool → Bytes
  int : ℤ → Bytes
  float : ℚ → Bytes
  str : Bytes → Bytes
  bin : Bytes → Bytes
  arrayHeader : ℕ → Bytes
  mapHeader : ℕ → Bytes
  ext : ℕ → Bytes → Bytes
  recurseLimit : ℕ := 511
  listDepth : ℕ := 1
  dictDepth : ℕ := 1
  descends : 0 < listDepth ∧ 0 < dictDepth
  itemLimit : ℕ := 2^32 - 1
  overflowToDefault : Bool := true

/-- The integers of MessagePack. -/
def IntInRange (n : ℤ) : Prop := -2^63 ≤ n ∧ n < 2^64

instance (n : ℤ) : Decidable (IntInRange n) := inferInstanceAs (Decidable (_ ∧ _))

def overflowError : Exc := .exception "OverflowError" "Integer value out of range"

def recursionError : Exc := .valueError "recursion limit exceeded."

def tooLargeError : Exc := .valueError "item is too large"

/-- The end of `_default`. -/
def cannotEncode (cls : String) (str : Except Exc String) : Exc :=
  match str with
  | .ok text => .typeError ("Cannot encode value of type " ++ cls ++ " to MessagePack: " ++ text)
  | .error e => e

/-- `_default` of a date-time. -/
def defaultDateTime (d : DateTime) : Except Exc (ℕ × Bytes) :=
  match d.zone with
  | none => do return (1, ← packSigned 8 d.microseconds)
  | some true => do return (10, ← packSigned 8 d.microseconds)
  | some false => .error (.typeError "Cannot encode time zone-aware date-times to MessagePack")

/-- `_default` of a decimal. -/
def defaultDecimal (text : Bytes) : Except Exc (ℕ × Bytes) := do
  let text := text.take 65535
  return (5, (← packUnsigned 2 text.length) ++ packBytes text.length text)

namespace Packer
variable (packer : Packer)

/-- An extension type that the hook returns, packed. -/
def packExt (ext : Except Exc (ℕ × Bytes)) : Except Exc Bytes := ext.map fun ext => packer.ext ext.1 ext.2

/-- An integer. -/
def packInt (n : ℤ) : Except Exc Bytes :=
  if IntInRange n then .ok (packer.int n)
  else if packer.overflowToDefault then .error (cannotEncode "int" (.ok n.repr))
  else .error overflowError

def checkDepth (depth : ℕ) : Except Exc Unit :=
  if packer.recurseLimit < depth then .error recursionError else .ok ()

def checkSize (n : ℕ) : Except Exc Unit :=
  if packer.itemLimit < n then .error tooLargeError else .ok ()

end Packer

namespace MsgpackSerializer
variable (serializer : MsgpackSerializer) (packer : Packer)

mutual
/-- `Packer._pack`, with `_default` as its hook. -/
def packItem (depth : ℕ) : Item serializer.currint → Except Exc Bytes
  | .none => do packer.checkDepth depth; return packer.nil
  | .bool b => do packer.checkDepth depth; return packer.bool b
  | .int n => do packer.checkDepth depth; packer.packInt n
  | .float q => do packer.checkDepth depth; return packer.float q
  | .text t => do packer.checkDepth depth; packer.checkSize (Utf8.encode t).length; return packer.str (Utf8.encode t)
  | .bytes b => do packer.checkDepth depth; packer.checkSize b.length; return packer.bin b
  | .list vs => do
    packer.checkDepth depth
    packer.checkSize vs.length
    return packer.arrayHeader vs.length ++ (← packItems (depth+packer.listDepth) vs)
  | .tuple vs => do
    packer.checkDepth depth
    packer.checkSize vs.length
    return packer.arrayHeader vs.length ++ (← packItems (depth+packer.listDepth) vs)
  | .dict entries => do
    packer.checkDepth depth
    packer.checkSize entries.length
    return packer.mapHeader entries.length ++ (← packPairs (depth+packer.dictDepth) entries)
  | .datetime d => do packer.checkDepth depth; packer.packExt (defaultDateTime d)
  | .date d => do packer.checkDepth depth; packer.packExt (serializer.default (.date d))
  | .time t => do packer.checkDepth depth; packer.packExt (serializer.default (.time t))
  | .decimal text => do packer.checkDepth depth; packer.packExt (defaultDecimal text)
  | .amount a => do packer.checkDepth depth; packer.packExt (serializer.default (.amount a))
  | .object cls str => do packer.checkDepth depth; packer.packExt (.error (cannotEncode cls str))

def packItems (depth : ℕ) : List (Item serializer.currint) → Except Exc Bytes
  | [] => .ok []
  | v :: vs => do return (← packItem depth v) ++ (← packItems depth vs)

def packPairs (depth : ℕ) : List (Item serializer.currint × Item serializer.currint) → Except Exc Bytes
  | [] => .ok []
  | (k, v) :: entries => do
    return (← packItem depth k) ++ (← packItem depth v) ++ (← packPairs depth entries)
end

end MsgpackSerializer

/-- Why a value cannot be packed, apart from the values in it. -/
inductive Obstacle
  | tooDeep
  | tooLarge
  | integer (n : ℤ)
  | amount
  | timeZone
  | unsupported (cls : String) (str : Except Exc String)

namespace Item
variable (packer : Packer) {currint : Currint}

mutual
/-- The value and those in it, with their depths, in the order in which they are packed. -/
def visits (depth : ℕ) : Item currint → List (ℕ × Item currint)
  | .list vs => (depth, .list vs) :: visitsAll (depth+packer.listDepth) vs
  | .tuple vs => (depth, .tuple vs) :: visitsAll (depth+packer.listDepth) vs
  | .dict entries => (depth, .dict entries) :: visitsPairs (depth+packer.dictDepth) entries
  | v => [(depth, v)]

def visitsAll (depth : ℕ) : List (Item currint) → List (ℕ × Item currint)
  | [] => []
  | v :: vs => visits depth v ++ visitsAll depth vs

def visitsPairs (depth : ℕ) : List (Item currint × Item currint) → List (ℕ × Item currint)
  | [] => []
  | (k, v) :: entries => visits depth k ++ visits depth v ++ visitsPairs depth entries
end

end Item

namespace Packer
variable (packer : Packer) {currint : Currint}

def sizeObstacle (n : ℕ) : Option Obstacle := if packer.itemLimit < n then some .tooLarge else none

/-- The obstacle of a value within the limit for the depth. -/
def valueObstacle : Item currint → Option Obstacle
  | .int n => if IntInRange n then none else some (.integer n)
  | .text t => packer.sizeObstacle (Utf8.encode t).length
  | .bytes b => packer.sizeObstacle b.length
  | .list vs => packer.sizeObstacle vs.length
  | .tuple vs => packer.sizeObstacle vs.length
  | .dict entries => packer.sizeObstacle entries.length
  | .datetime d => if d.zone = some false then some .timeZone else none
  | .amount a => if BigEndian.Fits 8 a.value then none else some .amount
  | .object cls str => some (.unsupported cls str)
  | _ => none

/-- The obstacle at a value. -/
def obstacle (visit : ℕ × Item currint) : Option Obstacle :=
  if packer.recurseLimit < visit.1 then some .tooDeep else packer.valueObstacle visit.2

/-- The error at an obstacle. -/
def error : Obstacle → Exc
  | .tooDeep => recursionError
  | .tooLarge => tooLargeError
  | .integer n => if packer.overflowToDefault then cannotEncode "int" (.ok n.repr) else overflowError
  | .amount => structError "argument out of range"
  | .timeZone => .typeError "Cannot encode time zone-aware date-times to MessagePack"
  | .unsupported cls str => cannotEncode cls str

/-- The hook answers with a `TypeError`. An object that cannot be written out as well raises what its
class raises. -/
def Answered : Obstacle → Prop
  | .tooDeep | .tooLarge | .amount => False
  | .integer _ => packer.overflowToDefault = true
  | .timeZone => True
  | .unsupported _ (.ok _) => True
  | .unsupported _ (.error (.exception cls _)) => cls = "TypeError"
  | .unsupported _ (.error (.invalidField _)) => True
  | .unsupported _ (.error _) => False

end Packer

/-- The error of a computation, if it fails. -/
def errorOf {α : Type} : Except Exc α → Option Exc
  | .ok _ => none
  | .error e => some e

lemma errorOf_bind {α β : Type} {x : Except Exc α} {f : α → Except Exc β} {o : Option Exc}
    (h : ∀ a, errorOf (f a) = o) : errorOf (x >>= f) = (errorOf x).or o := by
  cases x with
  | error e => rfl
  | ok a => exact h a

lemma errorOf_map {α β : Type} (x : Except Exc α) (f : α → β) : errorOf (x.map f) = errorOf x := by
  cases x <;> rfl

lemma errorOf_return {α β : Type} (x : Except Exc α) (f : α → β) :
    errorOf (x >>= fun a => pure (f a)) = errorOf x := by
  cases x <;> rfl

namespace Packer
variable (packer : Packer)

lemma errorOf_checkDepth (depth : ℕ) {α : Type} {x : Except Exc α} :
    errorOf (packer.checkDepth depth >>= fun _ => x) =
      if packer.recurseLimit < depth then some recursionError else errorOf x := by
  unfold checkDepth
  split_ifs <;> rfl

lemma errorOf_checkSize (n : ℕ) {α : Type} {x : Except Exc α} :
    errorOf (packer.checkSize n >>= fun _ => x) =
      ((packer.sizeObstacle n).map packer.error).or (errorOf x) := by
  unfold checkSize sizeObstacle
  split_ifs <;> rfl

lemma errorOf_packExt (ext : Except Exc (ℕ × Bytes)) : errorOf (packer.packExt ext) = errorOf ext :=
  errorOf_map _ _

lemma errorOf_packInt (n : ℤ) :
    errorOf (packer.packInt n) = (if IntInRange n then none else some (Obstacle.integer n)).map packer.error := by
  unfold packInt
  split_ifs with hrange hdefault
  · rfl
  · simp [errorOf, error, hdefault]
  · simp [errorOf, error, hdefault]

end Packer

lemma errorOf_packSigned (n : ℤ) :
    errorOf (packSigned 8 n) = if BigEndian.Fits 8 n then none else some (structError "argument out of range") := by
  unfold packSigned
  split_ifs <;> rfl

lemma errorOf_packUnsigned {width n : ℕ} (h : n < 256^width) : errorOf (packUnsigned width n) = none := by
  rw [packUnsigned_of_lt h]
  rfl

namespace MsgpackSerializer
variable (serializer : MsgpackSerializer) (packer : Packer)

lemma errorOf_default_date (d : Date) : errorOf (serializer.default (.date d)) = none := by
  rw [default_date]
  rfl

lemma errorOf_default_time (t : Time) : errorOf (serializer.default (.time t)) = none := by
  rw [default_time]
  rfl

lemma errorOf_default_amount (a : Amount serializer.currint) :
    errorOf (serializer.default (.amount a)) =
      if BigEndian.Fits 8 a.value then none else some (structError "argument out of range") := by
  rw [default]
  exact (errorOf_return _ _).trans (errorOf_packSigned _)

/-- A decimal is cut off, so that its length has room. -/
lemma errorOf_defaultDecimal (text : Bytes) : errorOf (defaultDecimal text) = none := by
  have hlength : (text.take 65535).length < 256^2 := by
    rw [List.length_take]
    omega
  exact (errorOf_return _ _).trans (errorOf_packUnsigned hlength)

lemma errorOf_defaultDateTime (d : DateTime) :
    errorOf (defaultDateTime d) =
      if d.zone = some false then
        some (.typeError "Cannot encode time zone-aware date-times to MessagePack")
      else none := by
  have hpack : errorOf (packSigned 8 d.microseconds) = none := by
    rw [errorOf_packSigned, if_pos d.fits]
  unfold defaultDateTime
  match d.zone with
  | none => exact (errorOf_return _ _).trans hpack
  | some true => exact (errorOf_return _ _).trans hpack
  | some false => rfl

variable {serializer}

/-- The first obstacle is at the value itself, or else further on. -/
lemma map_findSome?_cons (depth : ℕ) (v : Item serializer.currint) (rest : List (ℕ × Item serializer.currint)) :
    (((depth, v) :: rest).findSome? packer.obstacle).map packer.error =
      if packer.recurseLimit < depth then some recursionError
      else ((packer.valueObstacle v).map packer.error).or ((rest.findSome? packer.obstacle).map packer.error) := by
  rw [List.findSome?_cons]
  unfold Packer.obstacle
  dsimp only
  split_ifs with hdepth
  · rfl
  · cases packer.valueObstacle v <;> rfl

lemma map_findSome?_append (visits visits' : List (ℕ × Item serializer.currint)) :
    ((visits ++ visits').findSome? packer.obstacle).map packer.error =
      ((visits.findSome? packer.obstacle).map packer.error).or
        ((visits'.findSome? packer.obstacle).map packer.error) := by
  rw [List.findSome?_append]
  cases visits.findSome? packer.obstacle <;> rfl

lemma errorOf_leaf {depth : ℕ} {v : Item serializer.currint} {x : Except Exc Bytes}
    (h : errorOf x = (packer.valueObstacle v).map packer.error) :
    errorOf (packer.checkDepth depth >>= fun _ => x) =
      (([(depth, v)] : List (ℕ × Item serializer.currint)).findSome? packer.obstacle).map packer.error := by
  rw [Packer.errorOf_checkDepth, map_findSome?_cons, h, List.findSome?_nil, Option.map_none, Option.or_none]

/-- A container: its own obstacles, then those of what is in it. -/
lemma errorOf_container {depth n : ℕ} {v : Item serializer.currint} {x : Except Exc Bytes} {header : Bytes}
    {rest : List (ℕ × Item serializer.currint)} (hv : packer.valueObstacle v = packer.sizeObstacle n)
    (hx : errorOf x = (rest.findSome? packer.obstacle).map packer.error) :
    errorOf (packer.checkDepth depth >>= fun _ => packer.checkSize n >>= fun _ =>
        x >>= fun b => pure (header ++ b)) =
      (((depth, v) :: rest).findSome? packer.obstacle).map packer.error := by
  rw [Packer.errorOf_checkDepth, Packer.errorOf_checkSize, errorOf_return, map_findSome?_cons, hv, hx]

lemma errorOf_append {x y : Except Exc Bytes} :
    errorOf (x >>= fun a => y >>= fun b => pure (a ++ b)) = (errorOf x).or (errorOf y) := by
  apply errorOf_bind
  intro a
  exact errorOf_return y _

mutual
/-- Packing fails with the error of the first obstacle. -/
theorem errorOf_packItem (depth : ℕ) : ∀ v : Item serializer.currint,
    errorOf (serializer.packItem packer depth v) =
      ((v.visits packer depth).findSome? packer.obstacle).map packer.error
  | .none => errorOf_leaf packer rfl
  | .bool _ => errorOf_leaf packer rfl
  | .int n => errorOf_leaf packer (packer.errorOf_packInt n)
  | .float _ => errorOf_leaf packer rfl
  | .text t => by
    refine errorOf_leaf packer ?_
    rw [Packer.errorOf_checkSize]
    exact Option.or_none
  | .bytes b => by
    refine errorOf_leaf packer ?_
    rw [Packer.errorOf_checkSize]
    exact Option.or_none
  | .list vs => errorOf_container packer rfl (errorOf_packItems (depth+packer.listDepth) vs)
  | .tuple vs => errorOf_container packer rfl (errorOf_packItems (depth+packer.listDepth) vs)
  | .dict entries => errorOf_container packer rfl (errorOf_packPairs (depth+packer.dictDepth) entries)
  | .datetime d => by
    refine errorOf_leaf packer ?_
    rw [Packer.errorOf_packExt, errorOf_defaultDateTime, Packer.valueObstacle]
    split_ifs <;> rfl
  | .date d => by
    refine errorOf_leaf packer ?_
    rw [Packer.errorOf_packExt, errorOf_default_date]
    rfl
  | .time t => by
    refine errorOf_leaf packer ?_
    rw [Packer.errorOf_packExt, errorOf_default_time]
    rfl
  | .decimal text => by
    refine errorOf_leaf packer ?_
    rw [Packer.errorOf_packExt, errorOf_defaultDecimal]
    rfl
  | .amount a => by
    refine errorOf_leaf packer ?_
    rw [Packer.errorOf_packExt, errorOf_default_amount, Packer.valueObstacle]
    split_ifs <;> rfl
  | .object cls str => errorOf_leaf packer rfl

theorem errorOf_packItems (depth : ℕ) : ∀ vs : List (Item serializer.currint),
    errorOf (serializer.packItems packer depth vs) =
      ((Item.visitsAll packer depth vs).findSome? packer.obstacle).map packer.error
  | [] => rfl
  | v :: vs => by
    rw [packItems, errorOf_append, errorOf_packItem depth v, errorOf_packItems depth vs, Item.visitsAll,
      map_findSome?_append]

theorem errorOf_packPairs (depth : ℕ) : ∀ entries : List (Item serializer.currint × Item serializer.currint),
    errorOf (serializer.packPairs packer depth entries) =
      ((Item.visitsPairs packer depth entries).findSome? packer.obstacle).map packer.error
  | [] => rfl
  | (k, v) :: entries => by
    have htail : ∀ a, errorOf (serializer.packItem packer depth v >>= fun b =>
        serializer.packPairs packer depth entries >>= fun c => pure (a ++ b ++ c)) =
        (errorOf (serializer.packItem packer depth v)).or
          (errorOf (serializer.packPairs packer depth entries)) := by
      intro a
      apply errorOf_bind
      intro b
      exact errorOf_return _ _
    rw [packPairs, errorOf_bind htail, errorOf_packItem depth k, errorOf_packItem depth v,
      errorOf_packPairs depth entries, Item.visitsPairs, map_findSome?_append, map_findSome?_append,
      Option.or_assoc]
end

end MsgpackSerializer
end PySOA
