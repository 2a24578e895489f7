import Mathlib.Logic.Equiv.Finset
import PySOA.Common.Errors
import PySOA.Lib.DocumentEquality
import PySOA.Lib.Results

/-! Hashable forms of dicts, and when equal forms mean equal contents: lists become tuples and dicts become
frozensets of pairs, so these are confused with tuples and frozensets that were there before. -/
namespace PySOA
open Document (Everywhere Regular)

/-- Hashable values up to `==`, with the ints, tuples and frozensets among them. -/
class Hashables (η : Type) where
  int : ℕ → η
  tuple : List η → η
  frozenset : Finset η → η
  tuple_injective : Function.Injective tuple
  frozenset_injective : Function.Injective frozenset
  tuple_ne_frozenset : ∀ items members, tuple items ≠ frozenset members

/-- Values nested of dicts, lists and hashable leaves. -/
abbrev Content (η : Type) := Document η Unit η

namespace Hashable
open Hashables (int tuple frozenset)
variable {η : Type}

section code
variable [Hashables η] [DecidableEq η]

/-- A key of a dict. -/
def key : Slot η → η
  | .name k => k
  | .index i => int i

/-- What an item of a tuple is hashed as. -/
def hashItem : Content η → Except Exc η
  | .leaf h => .ok h
  | .dict _ => .error (.typeError "unhashable type: 'dict'")
  | .seq _ _ => .error (.typeError "unhashable type: 'list'")

mutual
/-- The pairs of keys and values that go into the frozenset, each hashed. -/
def hashablePairs : List (Slot η × Content η) → Except Exc (List η)
  | [] => .ok []
  | (k, v) :: d =>
    match hashableValue v with
    | .error e => .error e
    | .ok h => (hashablePairs d).map (tuple [key k, h] :: ·)

def hashableValue : Content η → Except Exc η
  | .seq _ items => (items.mapM hashItem).map tuple
  | .dict d => (hashablePairs d).map fun pairs => frozenset pairs.toFinset
  | .leaf h => .ok h
end

/-- `dict_to_hashable`. A pair is hashed when it comes into the frozenset, and a list has become a tuple by
then. -/
def dictToHashable (d : List (Slot η × Content η)) : Except Exc η :=
  (hashablePairs d).map fun pairs => frozenset pairs.toFinset

/-- The pairs of the keys with values for the entries. -/
def pairs (value : Slot η × Content η → η) (d : List (Slot η × Content η)) : Finset η :=
  (d.map fun entry => tuple [key entry.1, value entry]).toFinset

end code

/-- The items of a list are hashable. -/
def Flat : Content η → Prop
  | .seq _ items => ∃ hs : List η, items = hs.map .leaf
  | _ => True

/-- One has a list where the other has the tuple of its items, or a dict where the other has the frozenset of
its pairs, and the rest is equal. -/
inductive Alike [Hashables η] [DecidableEq η] : Content η → Content η → Prop
  | same {v w : Content η} (shape : Document.SameShape v w)
      (keys : ∀ s, s ∈ v.children.map Prod.fst ↔ s ∈ w.children.map Prod.fst)
      (values : ∀ s v' w', Assoc.get? s v.children = some v' → Assoc.get? s w.children = some w' →
        Alike v' w') : Alike v w
  | tuple (hs : List η) : Alike (.seq () (hs.map .leaf)) (.leaf (tuple hs))
  | frozenset {d : List (Slot η × Content η)} (value : Slot η × Content η → η)
      (values : ∀ entry ∈ d, Alike entry.2 (.leaf (value entry))) :
      Alike (.dict d) (.leaf (frozenset (pairs value d)))
  | symm {v w : Content η} (h : Alike v w) : Alike w v

lemma hashItem_eq_ok {v : Content η} {h : η} : hashItem v = .ok h ↔ v = .leaf h := by
  cases v <;> simp [hashItem]

lemma mapM_hashItem {items : List (Content η)} {hs : List η} :
    items.mapM hashItem = .ok hs ↔ items = hs.map .leaf := by
  rw [Results.mapM_eq_ok]
  induction items generalizing hs with
  | nil => cases hs <;> simp
  | cons v items ih =>
    cases hs with
    | nil => simp
    | cons h hs =>
      rw [List.map_cons, List.map_cons, List.map_cons, List.cons.injEq, List.cons.injEq, ih, hashItem_eq_ok]

section values
variable [Hashables η] [DecidableEq η] {v w : Content η} {d e : List (Slot η × Content η)} {h : η}

lemma hashablePairs_of_values (value : Slot η × Content η → η)
    (h : ∀ entry ∈ d, hashableValue entry.2 = .ok (value entry)) :
    hashablePairs d = .ok (d.map fun entry => tuple [key entry.1, value entry]) := by
  induction d with
  | nil => rw [hashablePairs, List.map_nil]
  | cons entry d ih =>
    obtain ⟨k, v⟩ := entry
    have hrest := ih fun entry hentry => h entry (List.mem_cons_of_mem _ hentry)
    rw [hashablePairs, h (k, v) List.mem_cons_self, hrest]
    rfl

lemma exists_of_hashablePairs {pairs : List η} (h : hashablePairs d = .ok pairs) :
    ∀ entry ∈ d, ∃ h, hashableValue entry.2 = .ok h := by
  induction d generalizing pairs with
  | nil => simp
  | cons entry d ih =>
    obtain ⟨k, v⟩ := entry
    rw [hashablePairs] at h
    cases hv : hashableValue v with
    | error e =>
      rw [hv] at h
      cases h
    | ok value =>
      rw [hv] at h
      obtain ⟨rest, hrest, -⟩ := Results.map_eq_ok.mp h
      intro entry hentry
      obtain rfl | hentry := List.mem_cons.mp hentry
      · exact ⟨value, hv⟩
      · exact ih hrest entry hentry

/-- Each value of a dict has a hashable form, and the frozenset has the pairs made with these. -/
lemma dictToHashable_eq_ok {r : η} : dictToHashable d = .ok r ↔
    ∃ value : Slot η × Content η → η, (∀ entry ∈ d, hashableValue entry.2 = .ok (value entry)) ∧
      r = frozenset (pairs value d) := by
  constructor
  · intro h
    obtain ⟨pairs, hpairs, rfl⟩ := Results.map_eq_ok.mp h
    have : Nonempty η := ⟨int 0⟩
    choose! value hvalue using exists_of_hashablePairs hpairs
    rw [hashablePairs_of_values value hvalue] at hpairs
    cases hpairs
    exact ⟨value, hvalue, rfl⟩
  · rintro ⟨value, hvalue, rfl⟩
    rw [dictToHashable, hashablePairs_of_values value hvalue]
    rfl

lemma hashableValue_dict (d : List (Slot η × Content η)) : hashableValue (.dict d) = dictToHashable d := rfl

lemma hashableValue_seq_eq_ok {kind : Unit} {items : List (Content η)} :
    hashableValue (.seq kind items) = .ok h ↔ ∃ hs : List η, items = hs.map .leaf ∧ h = tuple hs := by
  have hform : hashableValue (.seq kind items) = (items.mapM hashItem).map tuple := rfl
  rw [hform, Results.map_eq_ok]
  simp only [mapM_hashItem]

lemma hashableValue_leaf (a : η) : hashableValue (.leaf a : Content η) = .ok a := rfl

/-- The values with a hashable form. -/
theorem exists_hashableValue_iff : (∃ h, hashableValue v = .ok h) ↔ Everywhere Flat v := by
  induction v using Document.of_children with
  | h v ih =>
    cases v with
    | leaf a =>
      exact iff_of_true ⟨a, hashableValue_leaf a⟩ (.leaf trivial)
    | dict d =>
      have hvalues : (∃ r, dictToHashable d = .ok r) ↔ ∀ entry ∈ d, ∃ h, hashableValue entry.2 = .ok h := by
        simp only [dictToHashable_eq_ok]
        constructor
        · rintro ⟨r, value, hvalue, -⟩ entry hentry
          exact ⟨value entry, hvalue entry hentry⟩
        · intro h
          have : Nonempty η := ⟨int 0⟩
          choose! value hvalue using h
          exact ⟨_, value, hvalue, rfl⟩
      rw [hashableValue_dict, hvalues]
      constructor
      · intro h
        exact .intro trivial fun entry hentry => (ih entry hentry).mp (h entry hentry)
      · rintro ⟨-, hbelow⟩ entry hentry
        exact (ih entry hentry).mpr (hbelow entry hentry)
    | seq kind items =>
      constructor
      · rintro ⟨h, hh⟩
        obtain ⟨hs, rfl, -⟩ := hashableValue_seq_eq_ok.mp hh
        refine .intro ⟨hs, rfl⟩ ?_
        intro child hchild
        obtain ⟨j, -, hitem⟩ := Document.mem_indexed.mp hchild
        obtain ⟨a, -, ha⟩ := List.mem_map.mp (List.mem_of_getElem? hitem)
        rw [← ha]
        exact .leaf trivial
      · rintro ⟨⟨hs, rfl⟩, -⟩
        exact ⟨tuple hs, hashableValue_seq_eq_ok.mpr ⟨hs, rfl, rfl⟩⟩

lemma mem_pairs {value : Slot η × Content η → η} (hd : (d.map Prod.fst).Nodup) :
    h ∈ pairs value d ↔ ∃ s v, Assoc.get? s d = some v ∧ h = tuple [key s, value (s, v)] := by
  rw [pairs, List.mem_toFinset, List.mem_map]
  constructor
  · rintro ⟨⟨s, v⟩, hentry, rfl⟩
    exact ⟨s, v, Assoc.get?_of_mem hd hentry, rfl⟩
  · rintro ⟨s, v, hv, rfl⟩
    exact ⟨(s, v), Assoc.mem_of_get? hv, rfl⟩

/-- All pairs are among those of the other dict if it has the keys with the same values. -/
lemma pairs_subset_iff {value value' : Slot η × Content η → η} (hd : Regular () (.dict d : Content η))
    (he : Regular () (.dict e : Content η)) : pairs value d ⊆ pairs value' e ↔
      ∀ s v, Assoc.get? s d = some v → ∃ w, Assoc.get? s e = some w ∧ value (s, v) = value' (s, w) := by
  constructor
  · intro hsubset s v hv
    obtain ⟨s', w, hw, heq⟩ := (mem_pairs he.1).mp (hsubset ((mem_pairs hd.1).mpr ⟨s, v, hv, rfl⟩))
    have hpair := Hashables.tuple_injective heq
    obtain ⟨k, hk⟩ := hd.2 _ (Assoc.mem_of_get? hv)
    obtain ⟨k', hk'⟩ := he.2 _ (Assoc.mem_of_get? hw)
    dsimp only at hk hk'
    subst hk hk'
    obtain ⟨rfl, hvalue⟩ : k = k' ∧ value (.name k, v) = value' (.name k', w) := by simpa [key] using hpair
    exact ⟨w, hw, hvalue⟩
  · intro h p hp
    obtain ⟨s, v, hv, rfl⟩ := (mem_pairs hd.1).mp hp
    obtain ⟨w, hw, hvalue⟩ := h s v hv
    rw [hvalue]
    exact (mem_pairs he.1).mpr ⟨s, w, hw, rfl⟩

lemma Alike.of_eqv (hv : Everywhere Document.Named v) (hw : Everywhere Document.Named w)
    (h : v.eqv w = true) : Alike v w := by
  induction v using Document.of_children generalizing w with
  | h v ih =>
    obtain ⟨hnamed, hbelow⟩ := hv
    obtain ⟨hnamed', hbelow'⟩ := hw
    obtain ⟨hshape, hchildren⟩ := (Document.eqv_iff hnamed hnamed').mp h
    apply Alike.same hshape hchildren.mem_keys
    intro s v' w' hv' hw'
    have hmem := Assoc.mem_of_get? hv'
    exact ih _ hmem (hbelow _ hmem) (hbelow' _ (Assoc.mem_of_get? hw')) (hchildren.eqv_of_get? hv' hw')

/-- A value is like its hashable form. -/
lemma Alike.of_hashableValue (hh : hashableValue v = .ok h) : Alike v (.leaf h) := by
  induction v using Document.of_children generalizing h with
  | h v ih =>
    cases v with
    | leaf a =>
      cases (hashableValue_leaf a).symm.trans hh
      refine .same ?_ (by simp) ?_
      · simp [Document.SameShape]
      · intro s v' w' hv'
        cases hv'
    | dict d =>
      rw [hashableValue_dict] at hh
      obtain ⟨value, hvalue, rfl⟩ := dictToHashable_eq_ok.mp hh
      exact .frozenset value fun entry hentry => ih entry hentry (hvalue entry hentry)
    | seq kind items =>
      obtain ⟨hs, rfl, rfl⟩ := hashableValue_seq_eq_ok.mp hh
      exact .tuple hs

/-- Alike values have one hashable form. -/
theorem Alike.hashableValue_eq (halike : Alike v w) (hv : Everywhere (Regular ()) v)
    (hw : Everywhere (Regular ()) w) {h h' : η} (hh : hashableValue v = .ok h)
    (hh' : hashableValue w = .ok h') : h = h' := by
  induction halike generalizing h h' with
  | @same v w shape keys values ih =>
    obtain ⟨hregular, hbelow⟩ := hv
    obtain ⟨hregular', hbelow'⟩ := hw
    cases v with
    | leaf a =>
      cases w with
      | leaf b =>
        obtain rfl : a = b := by simpa [Document.SameShape] using shape
        cases hh.symm.trans hh'
        rfl
      | _ => exact shape.elim
    | dict d =>
      cases w with
      | dict e =>
        rw [hashableValue_dict] at hh hh'
        obtain ⟨value, hvalue, rfl⟩ := dictToHashable_eq_ok.mp hh
        obtain ⟨value', hvalue', rfl⟩ := dictToHashable_eq_ok.mp hh'
        have hcommon : ∀ s v w, Assoc.get? s d = some v → Assoc.get? s e = some w →
            value (s, v) = value' (s, w) := by
          intro s v w hv hw
          have hmem := Assoc.mem_of_get? hv
          have hmem' := Assoc.mem_of_get? hw
          exact ih s v w hv hw (hbelow _ hmem) (hbelow' _ hmem') (hvalue _ hmem) (hvalue' _ hmem')
        congr 1
        apply Finset.Subset.antisymm
        · rw [pairs_subset_iff hregular hregular']
          intro s v hv
          obtain ⟨w, hw⟩ := Assoc.mem_keys_iff.mp ((keys s).mp (Assoc.mem_keys_iff.mpr ⟨v, hv⟩))
          exact ⟨w, hw, hcommon s v w hv hw⟩
        · rw [pairs_subset_iff hregular' hregular]
          intro s w hw
          obtain ⟨v, hv⟩ := Assoc.mem_keys_iff.mp ((keys s).mpr (Assoc.mem_keys_iff.mpr ⟨w, hw⟩))
          exact ⟨v, hv, (hcommon s v w hv hw).symm⟩
      | _ => exact shape.elim
    | seq kind items =>
      cases w with
      | seq kind' items' =>
        obtain ⟨hs, rfl, rfl⟩ := hashableValue_seq_eq_ok.mp hh
        obtain ⟨hs', rfl, rfl⟩ := hashableValue_seq_eq_ok.mp hh'
        have hlength (j : ℕ) : j < hs.length ↔ j < hs'.length := by
          have hj := keys (.index j)
          simp only [Document.children, Document.index_mem_indexed, List.length_map] at hj
          exact hj
        have hleft := hlength hs.length
        have hright := hlength hs'.length
        congr 1
        apply List.ext_getElem (by omega)
        intro j hj hj'
        exact ih (.index j) (.leaf hs[j]) (.leaf hs'[j])
          (by simp [Document.children, Document.get?_indexed, hj])
          (by simp [Document.children, Document.get?_indexed, hj'])
          (.leaf trivial) (.leaf trivial) (hashableValue_leaf _) (hashableValue_leaf _)
      | _ => exact shape.elim
  | tuple hs =>
    obtain ⟨hs', hitems, rfl⟩ := hashableValue_seq_eq_ok.mp hh
    cases (hashableValue_leaf _).symm.trans hh'
    rw [(List.map_injective_iff.mpr fun _ _ => Document.leaf.inj) hitems]
  | @frozenset d value values ih =>
    rw [hashableValue_dict] at hh
    obtain ⟨value', hvalue', rfl⟩ := dictToHashable_eq_ok.mp hh
    cases (hashableValue_leaf _).symm.trans hh'
    obtain ⟨-, hbelow⟩ := hv
    congr 1
    unfold pairs
    congr 1
    apply List.map_congr_left
    intro entry hentry
    have hentry' := hbelow entry hentry
    rw [ih entry hentry hentry' (.leaf trivial) (hvalue' entry hentry) (hashableValue_leaf _)]
  | symm halike ih => exact (ih hw hv hh' hh).symm

/-- Values with one hashable form are alike. -/
theorem Alike.of_hashableValue_eq (hv : Everywhere (Regular ()) v)
    (hw : Everywhere (Regular ()) w) (hh : hashableValue v = .ok h)
    (hh' : hashableValue w = .ok h) : Alike v w := by
  induction v using Document.of_children generalizing w h with
  | h v ih =>
    obtain ⟨hregular, hbelow⟩ := hv
    cases w with
    | leaf b =>
      cases (hashableValue_leaf b).symm.trans hh'
      exact .of_hashableValue hh
    | seq kind' items' =>
      obtain ⟨hs', rfl, rfl⟩ := hashableValue_seq_eq_ok.mp hh'
      cases v with
      | leaf a =>
        cases (hashableValue_leaf a).symm.trans hh
        exact .symm (.tuple hs')
      | dict d =>
        rw [hashableValue_dict] at hh
        obtain ⟨value, -, heq⟩ := dictToHashable_eq_ok.mp hh
        exact absurd heq (Hashables.tuple_ne_frozenset _ _)
      | seq kind items =>
        obtain ⟨hs, rfl, heq⟩ := hashableValue_seq_eq_ok.mp hh
        obtain rfl := Hashables.tuple_injective heq
        have hnamed := hw.mono Regular.named
        exact .of_eqv hnamed hnamed (Document.eqv_refl hnamed)
    | dict e =>
      have hh'' := hh'
      rw [hashableValue_dict] at hh''
      obtain ⟨value', hvalue', rfl⟩ := dictToHashable_eq_ok.mp hh''
      obtain ⟨hregular', hbelow'⟩ := hw
      cases v with
      | leaf a =>
        cases (hashableValue_leaf a).symm.trans hh
        exact .symm (.of_hashableValue hh')
      | seq kind items =>
        obtain ⟨hs, rfl, heq⟩ := hashableValue_seq_eq_ok.mp hh
        exact absurd heq.symm (Hashables.tuple_ne_frozenset _ _)
      | dict d =>
        rw [hashableValue_dict] at hh
        obtain ⟨value, hvalue, heq⟩ := dictToHashable_eq_ok.mp hh
        have hpairs := Hashables.frozenset_injective heq
        have hsubset := (pairs_subset_iff hregular hregular').mp (Finset.Subset.antisymm_iff.mp hpairs).2
        have hsubset' := (pairs_subset_iff hregular' hregular).mp (Finset.Subset.antisymm_iff.mp hpairs).1
        refine .same trivial ?_ ?_
        · intro s
          simp only [Document.children, Assoc.mem_keys_iff]
          constructor
          · rintro ⟨v, hv⟩
            obtain ⟨w, hw, -⟩ := hsubset s v hv
            exact ⟨w, hw⟩
          · rintro ⟨w, hw⟩
            obtain ⟨v, hv, -⟩ := hsubset' s w hw
            exact ⟨v, hv⟩
        · intro s v w hv hw
          obtain ⟨w', hw', hsame⟩ := hsubset s v hv
          cases hw.symm.trans hw'
          have hmem := Assoc.mem_of_get? hv
          have hmem' := Assoc.mem_of_get? hw
          refine ih _ hmem (hbelow _ hmem) (hbelow' _ hmem') (hvalue _ hmem) ?_
          rw [hsame]
          exact hvalue' _ hmem'

end values

/-- A dict with hashable keys whose values are nested of such dicts, lists and hashable leaves. -/
structure ContentDict (η : Type) where
  entries : List (Slot η × Content η)
  regular : Everywhere (Regular ()) (.dict entries : Content η)

def ContentDict.content (d : ContentDict η) : Content η := .dict d.entries

section result
variable [Hashables η] [DecidableEq η]

/-- The two are not equal, but one has a list or dict where the other has the tuple or frozenset it becomes. -/
def Confused (v w : Content η) : Prop := v.eqv w = false ∧ Alike v w

/-- Both dicts have hashable forms, equal exactly if the dicts are, unless a list has an item that is not
hashable or the dicts are confused. -/
theorem dictToHashable_eq_iff (d e : ContentDict η) :
    (∃ r s, dictToHashable d.entries = .ok r ∧ dictToHashable e.entries = .ok s ∧
        (r = s ↔ d.content.eqv e.content = true)) ↔
      Everywhere Flat d.content ∧ Everywhere Flat e.content ∧ ¬Confused d.content e.content := by
  unfold ContentDict.content
  simp only [← hashableValue_dict]
  constructor
  · rintro ⟨r, s, hr, hs, heq⟩
    refine ⟨exists_hashableValue_iff.mp ⟨r, hr⟩, exists_hashableValue_iff.mp ⟨s, hs⟩, ?_⟩
    rintro ⟨hne, halike⟩
    have heqv := heq.mp (halike.hashableValue_eq d.regular e.regular hr hs)
    rw [hne] at heqv
    cases heqv
  · rintro ⟨hd, he, hconfused⟩
    obtain ⟨r, hr⟩ := exists_hashableValue_iff.mpr hd
    obtain ⟨s, hs⟩ := exists_hashableValue_iff.mpr he
    refine ⟨r, s, hr, hs, ?_⟩
    constructor
    · rintro rfl
      by_contra hne
      exact hconfused ⟨Bool.eq_false_iff.mpr hne, .of_hashableValue_eq d.regular e.regular hr hs⟩
    · intro heqv
      have halike := Alike.of_eqv (d.regular.mono Regular.named) (e.regular.mono Regular.named) heqv
      exact halike.hashableValue_eq d.regular e.regular hr hs

end result

/-- Numbers as hashable values: each is an int, a tuple or a frozenset. -/
instance : Hashables ℕ where
  int n := 3 * n
  tuple items := 3 * Encodable.encode items + 1
  frozenset members := 3 * Encodable.encode members + 2
  tuple_injective items items' h := Encodable.encode_injective (by dsimp only at h; omega)
  frozenset_injective members members' h := Encodable.encode_injective (by dsimp only at h; omega)
  tuple_ne_frozenset items members h := by omega

/-- A dict with a list in a list. -/
def nestedLists : ContentDict ℕ where
  entries := [(.name 0, .seq () [.seq () []])]
  regular := by
    refine .intro ⟨by simp, by simp⟩ ?_
    intro child hchild
    obtain rfl := List.mem_singleton.mp hchild
    refine .intro rfl ?_
    intro child hchild
    obtain rfl := List.mem_singleton.mp hchild
    exact .intro rfl fun child hchild => nomatch hchild

/-- A list in a list has no hashable form. -/
theorem not_dictToHashable_eq :
    ¬∃ r s, dictToHashable nestedLists.entries = .ok r ∧ dictToHashable nestedLists.entries = .ok s ∧
      (r = s ↔ nestedLists.content.eqv nestedLists.content = true) := by
  rintro ⟨r, s, hr, -⟩
  cases hr

end Hashable
end PySOA
