import Mathlib.Data.Rat.Defs
import PySOA.Common.Bytes

/-! The Python values that travel in messages. Tuples and sets are not among them; `attr.asdict` makes
lists of those of a response. -/
namespace PySOA

/-- A key of a dict: a text, or any other key together with what `str` makes of it. -/
inductive Key
  | text (s : String)
  | other (str : String)
  deriving DecidableEq, Repr

namespace Key

/-- `six.text_type(key)`. -/
def toText : Key → String
  | text s => s
  | other str => str

def isText : Key → Bool
  | text _ => true
  | other _ => false

end Key

/-- `object` is an instance of a class that no serializer knows; `unconvertible` is a container
that `attr.asdict` raises on, because it holds itself or has a key that becomes a list. -/
inductive Value
  | none
  | bool (b : Bool)
  | int (n : ℤ)
  | float (q : ℚ)
  | text (s : String)
  | bytes (b : Bytes)
  | list (vs : List Value)
  | dict (kvs : List (Key × Value))
  | object (cls : String)
  | unconvertible (cls : String)

/-- The entries of a dict in insertion order. -/
abbrev Dict := List (Key × Value)

/-- What makes two hashable values the same element of a set; numbers of all types are compared
by their value. -/
inductive HashKey
  | none
  | number (q : ℚ)
  | text (s : String)
  | bytes (b : Bytes)
  | object (cls : String)
  deriving DecidableEq

namespace Value

/-- `bool(value)`. -/
def truthy : Value → Bool
  | none => false
  | bool b => b
  | int n => n ≠ 0
  | float q => q ≠ 0
  | text s => s ≠ ""
  | bytes b => b ≠ []
  | list vs => !vs.isEmpty
  | dict kvs => !kvs.isEmpty
  | object _ => true
  | unconvertible _ => true

/-- The number that a numeric value is; booleans are numbers. -/
def number? : Value → Option ℚ
  | bool b => some (if b then 1 else 0)
  | int n => some n
  | float q => some q
  | _ => Option.none

/-- `value == n` for an integer `n`. -/
def eqInt (v : Value) (n : ℤ) : Bool := v.number? = some (n : ℚ)

def isNone : Value → Bool
  | none => true
  | _ => false

/-- What `str.format` makes of a value that stands for a request id; other values are not written
out. -/
def format : Value → String
  | none => "None"
  | bool b => if b then "True" else "False"
  | int n => toString n
  | text s => s
  | _ => "..."

/-- `none` stands for a value that is not hashable. -/
def hashKey? : Value → Option HashKey
  | none => some .none
  | bool b => some (.number (if b then 1 else 0))
  | int n => some (.number n)
  | float q => some (.number q)
  | text s => some (.text s)
  | bytes b => some (.bytes b)
  | object cls => some (.object cls)
  | list _ | dict _ | unconvertible _ => Option.none

mutual
/-- Whether `attr.asdict` converts the value; what it makes of it is then equal to it. -/
def convertible : Value → Bool
  | unconvertible _ => false
  | list vs => convertibleList vs
  | dict kvs => convertibleEntries kvs
  | _ => true

def convertibleList : List Value → Bool
  | [] => true
  | v :: vs => convertible v && convertibleList vs

def convertibleEntries : List (Key × Value) → Bool
  | [] => true
  | (_, v) :: kvs => convertible v && convertibleEntries kvs
end

@[simp] theorem eqInt_int (m n : ℤ) : (int m).eqInt n = decide (m = n) := by
  simp [eqInt, number?]

end Value

namespace Dict

/-- `d.get(key)`. -/
def get? : Dict → String → Option Value
  | [], _ => none
  | (k, v) :: kvs, key => if k = .text key then some v else get? kvs key

/-- `d[key] = value`: the entry keeps its place, a new one goes last. -/
def set : Dict → String → Value → Dict
  | [], key, value => [(.text key, value)]
  | (k, v) :: kvs, key, value =>
    if k = .text key then (k, value) :: kvs else (k, v) :: set kvs key value

/-- `d.pop(key, None)`. -/
def erase (d : Dict) (key : String) : Dict := d.filter (fun kv => kv.1 ≠ .text key)

/-- `d.update(d')`. -/
def update (d d' : Dict) : Dict :=
  d'.foldl (fun d kv =>
    match kv with
    | (.text key, v) => d.set key v
    | (.other _, _) => d ++ [kv]) d

/-- Whether a key of the dict is the given text once it is made a text. -/
def hasKeyText (d : Dict) (key : String) : Bool := d.any (fun kv => kv.1.toText = key)

/-- `{six.text_type(k): v for k, v in six.iteritems(d)}`. -/
def unicodeKeys (d : Dict) : Dict := d.foldl (fun d kv => d.set kv.1.toText kv.2) []

@[simp] theorem get?_set_self (d : Dict) (key : String) (v : Value) :
    (d.set key v).get? key = some v := by
  induction d with
  | nil => simp [set, get?]
  | cons kv d ih =>
    obtain ⟨k, w⟩ := kv
    by_cases h : k = .text key <;> simp [set, get?, h, ih]

theorem get?_set_of_ne (d : Dict) {key key' : String} (v : Value) (h : key' ≠ key) :
    (d.set key v).get? key' = d.get? key' := by
  induction d with
  | nil => simp [set, get?, h.symm]
  | cons kv d ih =>
    obtain ⟨k, w⟩ := kv
    by_cases hk : k = .text key
    · subst hk
      simp [set, get?, h.symm]
    · simp [set, get?, hk, ih]

lemma mem_set {d : Dict} {key : String} {v : Value} {kv : Key × Value} (h : kv ∈ d.set key v) :
    kv = (.text key, v) ∨ kv ∈ d := by
  induction d with
  | nil => exact .inl (List.mem_singleton.mp h)
  | cons head d ih =>
    obtain ⟨k, w⟩ := head
    unfold set at h
    split_ifs at h with hk
    · rcases List.mem_cons.mp h with rfl | h
      · exact .inl (by rw [hk])
      · exact .inr (List.mem_cons_of_mem _ h)
    · rcases List.mem_cons.mp h with rfl | h
      · exact .inr List.mem_cons_self
      · exact (ih h).imp_right (List.mem_cons_of_mem _)

lemma mem_set_self (d : Dict) (key : String) (v : Value) : (.text key, v) ∈ d.set key v := by
  induction d with
  | nil => exact List.mem_cons_self
  | cons head d ih =>
    obtain ⟨k, w⟩ := head
    unfold set
    split_ifs with hk
    · rw [hk]
      exact List.mem_cons_self
    · exact List.mem_cons_of_mem _ ih

lemma mem_set_of_mem {d : Dict} {key : String} {v : Value} {kv : Key × Value} (h : kv ∈ d)
    (hne : kv.1 ≠ .text key) : kv ∈ d.set key v := by
  induction d with
  | nil => cases h
  | cons head d ih =>
    obtain ⟨k, w⟩ := head
    unfold set
    split_ifs with hk <;> rcases List.mem_cons.mp h with rfl | h
    · exact absurd hk hne
    · exact List.mem_cons_of_mem _ h
    · exact List.mem_cons_self
    · exact List.mem_cons_of_mem _ (ih h)

/-- An entry of the updated dict is an entry of one of the two. -/
lemma mem_update {d d' : Dict} {kv : Key × Value} (h : kv ∈ d.update d') : kv ∈ d ∨ kv ∈ d' := by
  induction d' generalizing d with
  | nil => exact .inl h
  | cons head d' ih =>
    obtain ⟨k, w⟩ := head
    rcases ih h with h | h
    · cases k with
      | text key =>
        rcases mem_set h with rfl | h
        · exact .inr List.mem_cons_self
        · exact .inl h
      | other str =>
        rcases List.mem_append.mp h with h | h
        · exact .inl h
        · rw [List.mem_singleton.mp h]
          exact .inr List.mem_cons_self
    · exact .inr (List.mem_cons_of_mem _ h)

/-- An entry stays if the other dict does not have its key. -/
lemma mem_update_of_mem {d d' : Dict} {kv : Key × Value} (h : kv ∈ d) (hne : ∀ kv' ∈ d', kv'.1 ≠ kv.1) :
    kv ∈ d.update d' := by
  induction d' generalizing d with
  | nil => exact h
  | cons head d' ih =>
    obtain ⟨k, w⟩ := head
    apply ih _ fun kv' hkv' => hne kv' (List.mem_cons_of_mem _ hkv')
    cases k with
    | text key => exact mem_set_of_mem h (hne _ List.mem_cons_self).symm
    | other str => exact List.mem_append_left _ h

/-- What a dict with unicode keys has under a key, if only one value stands under keys of that text. -/
lemma get?_unicodeKeys {d : Dict} {key : String} {v : Value}
    (hall : ∀ kv ∈ d, kv.1.toText = key → kv.2 = v) (hex : ∃ kv ∈ d, kv.1.toText = key) :
    d.unicodeKeys.get? key = some v := by
  induction d using List.reverseRecOn with
  | nil =>
    obtain ⟨kv, hkv, -⟩ := hex
    cases hkv
  | append_singleton d kv ih =>
    have hlast : unicodeKeys (d ++ [kv]) = (unicodeKeys d).set kv.1.toText kv.2 := by
      simp [unicodeKeys]
    rw [hlast]
    by_cases hkey : kv.1.toText = key
    · rw [hkey, get?_set_self, hall kv (by simp) hkey]
    · rw [get?_set_of_ne _ _ (Ne.symm hkey)]
      apply ih fun kv' hkv' => hall kv' (List.mem_append_left _ hkv')
      obtain ⟨kv', hmem, hkey'⟩ := hex
      rcases List.mem_append.mp hmem with hmem | hmem
      · exact ⟨kv', hmem, hkey'⟩
      · rw [List.mem_singleton.mp hmem] at hkey'
        exact absurd hkey' hkey

end Dict
end PySOA
