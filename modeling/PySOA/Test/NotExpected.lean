import PySOA.Test.ExactStructure

/-! When `assert_not_expected` is right that no leaf of what is not expected is there: it counts leaves, and
values of which only some stand for leaves. -/
namespace PySOA
open Utf8 (Text)
open Document (Everywhere)

namespace Assertions
open Paths (text getAllPaths)
variable {α : Type}

/-- A dict with text keys, or a leaf. -/
def DictOrLeaf : Data α → Prop
  | .leaf _ => True
  | .dict entries => (entries.map Prod.fst).Nodup ∧ ∀ entry ∈ entries, ∃ key, entry.1 = .name key
  | .seq _ _ => False

/-- A dict with text keys whose values are nested of such dicts and leaves. -/
structure LeafDict (α : Type) where
  entries : List (Slot Text × Data α)
  regular : Everywhere DictOrLeaf (.dict entries : Data α)

def LeafDict.data (d : LeafDict α) : Data α := .dict d.entries

/-- The number of leaves of the expected values. -/
def countLeaves (l : List (Text × Mismatch α)) : ℕ :=
  (l.map fun entry => (Document.tips false entry.2.expected).length).sum

section meetings
variable [BEq α]

mutual
/-- The values of both that are at one place and are not compared key by key, with the texts of the paths
to them. -/
def meetings : Data α → Data α → Text → List (Text × Mismatch α)
  | .dict entries, .dict actual, fullPath =>
    if entries.isEmpty then [(fullPath, ⟨.dict entries, .dict actual⟩)]
    else entryMeetings entries actual (some fullPath)
  | expectedVal, actualVal, fullPath => [(fullPath, ⟨expectedVal, actualVal⟩)]

def entryMeetings : List (Slot Text × Data α) → List (Slot Text × Data α) → Option Text →
    List (Text × Mismatch α)
  | [], _, _ => []
  | (key, expectedVal) :: expected, actual, pre =>
    (match keyPath pre key, Assoc.get? key actual with
    | .ok fullPath, some actualVal => meetings expectedVal actualVal fullPath
    | _, _ => []) ++ entryMeetings expected actual pre
end

/-- The meetings of different values. -/
def differing (l : List (Text × Mismatch α)) : List (Text × Mismatch α) :=
  l.filter fun entry => !entry.2.expected.eqv entry.2.actual

/-- The meetings of equal values. -/
def equal (l : List (Text × Mismatch α)) : List (Text × Mismatch α) :=
  l.filter fun entry => entry.2.expected.eqv entry.2.actual

end meetings

@[simp] lemma countLeaves_append (l l' : List (Text × Mismatch α)) :
    countLeaves (l ++ l') = countLeaves l + countLeaves l' := by
  simp [countLeaves]

lemma countLeaves_pos {l : List (Text × Mismatch α)} :
    0 < countLeaves l ↔ ∃ entry ∈ l, 0 < (Document.tips false entry.2.expected).length := by
  induction l with
  | nil => simp [countLeaves]
  | cons entry l ih =>
    have hcons : countLeaves (entry :: l) = (Document.tips false entry.2.expected).length + countLeaves l := by
      simp [countLeaves]
    rw [hcons, List.exists_mem_cons_iff, ← ih]
    omega

lemma length_sorted (l : List Text) : (sorted l).length = l.length := List.length_insertionSort _ _

lemma length_missingPaths (py : AssertionBuiltins α) (fullPath : Text) (e : Data α) :
    (missingPaths py fullPath e).length = (Document.tips false e).length := by
  rw [missingPaths, List.length_map, length_getAllPaths]

section counts
variable [BEq α] {py : AssertionBuiltins α}

/-- The leaves that are missing and those of the values that meet are all, and the different values that
meet are noted. -/
def Counts (c : Comparison α) (l : List (Text × Mismatch α)) (leaves : ℕ) : Prop :=
  c.missing.length + countLeaves l = leaves ∧ c.mismatchingValues = differing l

/-- `compareValues` counts the leaves of these two values. -/
def CountsAt (py : AssertionBuiltins α) (e a : Data α) : Prop :=
  ∀ fullPath, ∃ c, compareValues py true e a fullPath = .ok c ∧
    Counts c (meetings e a fullPath) (Document.tips false e).length

lemma Counts.extend {c sub : Comparison α} {l l' : List (Text × Mismatch α)} {n n' : ℕ} (h : Counts c l n)
    (h' : Counts sub l' n') : Counts (c.extend sub) (l ++ l') (n + n') := by
  obtain ⟨hmissing, hvalues⟩ := h
  obtain ⟨hmissing', hvalues'⟩ := h'
  constructor
  · rw [Comparison.extend, List.length_append, countLeaves_append]
    omega
  · rw [Comparison.extend, hvalues, hvalues', differing, differing, differing, List.filter_append]

lemma counts_missing {missing : List Text} {n : ℕ} (h : missing.length = n) :
    Counts ({ missing } : Comparison α) [] n := by
  constructor
  · simpa [countLeaves] using h
  · rfl

/-- Two values that are not compared key by key. -/
lemma counts_meeting (fullPath : Text) (e a : Data α) {c : Comparison α} (hmissing : c.missing = [])
    (hvalues : c.mismatchingValues = if e.eqv a then [] else [(fullPath, ⟨e, a⟩)]) :
    Counts c [(fullPath, ⟨e, a⟩)] (Document.tips false e).length := by
  constructor
  · simp [hmissing, countLeaves]
  · rw [hvalues, differing]
    split_ifs with h <;> simp [h]

lemma compareEntries_counts (pre : Option Text) {expected actual : List (Slot Text × Data α)}
    (hexpected : ∀ entry ∈ expected, ∃ key, entry.1 = .name key)
    (h : ∀ child ∈ expected, ∀ a, Assoc.get? child.1 actual = some a → CountsAt py child.2 a) :
    ∃ c, compareEntries py true expected actual pre = .ok c ∧
      Counts c (entryMeetings expected actual pre) (Document.entryTips false expected).length := by
  apply compareEntries_rule py hexpected
  · rw [entryMeetings, Document.entryTips]
    exact ⟨rfl, rfl⟩
  · intro s d fullPath entries c hpath hget hcounts
    rw [entryMeetings, hpath, hget, Document.entryTips, List.length_append, List.length_map]
    exact (counts_missing (length_missingPaths py fullPath d)).extend hcounts
  · intro s d fullPath entries c a hmem hpath hget hcounts
    obtain ⟨sub, hsub, hvalue⟩ := h (s, d) hmem a hget fullPath
    refine ⟨sub, hsub, ?_⟩
    rw [entryMeetings, hpath, hget, Document.entryTips, List.length_append, List.length_map]
    exact hvalue.extend hcounts

lemma finishEntries_counts (pre : Option Text) {expected actual : List (Slot Text × Data α)}
    (hactual : ∀ entry ∈ actual, ∃ key, entry.1 = .name key) {c : Comparison α}
    {l : List (Text × Mismatch α)} {n : ℕ} (h : Counts c l n) :
    ∃ c', finishEntries py pre expected actual (.ok c) = .ok c' ∧ Counts c' l n := by
  obtain ⟨paths, hpaths, -⟩ := extraEntries_exact py pre expected hactual
  obtain ⟨hmissing, hvalues⟩ := h
  unfold finishEntries
  rw [hpaths]
  have hsame : (c.extend { extra := paths }).sort.mismatchingValues = c.mismatchingValues ++ [] := rfl
  refine ⟨_, rfl, ?_, ?_⟩
  · rw [Comparison.sort, Comparison.extend, length_sorted, List.append_nil]
    exact hmissing
  · rw [hsame, List.append_nil]
    exact hvalues

variable (py) in
lemma checkEntries_counts (pre : Option Text) {entries actual : List (Slot Text × Data α)}
    (hentries : DictOrLeaf (.dict entries : Data α)) (hactual : DictOrLeaf (.dict actual : Data α))
    (h : ∀ child ∈ entries, ∀ a, Assoc.get? child.1 actual = some a → CountsAt py child.2 a) :
    ∃ c, finishEntries py pre entries actual (compareEntries py true entries actual pre) = .ok c ∧
      Counts c (entryMeetings entries actual pre) (Document.entryTips false entries).length := by
  obtain ⟨c, hc, hcounts⟩ := compareEntries_counts pre hentries.2 h
  rw [hc]
  exact finishEntries_counts pre hactual.2 hcounts

lemma countsAt_dict {entries actual : List (Slot Text × Data α)}
    (hentries : DictOrLeaf (.dict entries : Data α)) (hactual : DictOrLeaf (.dict actual : Data α))
    (h : ∀ child ∈ entries, ∀ a, Assoc.get? child.1 actual = some a → CountsAt py child.2 a) :
    CountsAt py (.dict entries) (.dict actual) := by
  intro fullPath
  rw [compareValues, meetings]
  obtain ⟨c, hc, hcounts⟩ := checkEntries_counts py (some fullPath) hentries hactual h
  cases entries with
  | nil =>
    cases actual with
    | nil => exact ⟨{}, rfl, counts_meeting fullPath _ _ rfl rfl⟩
    | cons entry actual => exact ⟨_, rfl, counts_meeting fullPath _ _ rfl rfl⟩
  | cons entry entries =>
    refine ⟨c, hc, ?_⟩
    simpa [Document.tips] using hcounts

/-- Values that are not both dicts. -/
lemma countsAt_other {e a : Data α} (ha : DictOrLeaf a)
    (h : ∀ entries actual, e = .dict entries → a = .dict actual → False) : CountsAt py e a := by
  intro fullPath
  have hlist (items actual : List (Data α)) (_ : e = .seq .list items) (heq : a = .seq .list actual) : False := by
    rw [heq] at ha
    exact ha
  have hother : compareOther py true e a fullPath =
      if e.eqv a then {} else .mismatch fullPath e a := by
    unfold compareOther
    cases a with
    | seq kind items => exact ha.elim
    | _ => rfl
  have hmeetings : meetings e a fullPath = [(fullPath, ⟨e, a⟩)] := meetings.eq_2 e a fullPath h
  rw [compareValues.eq_3 py true e a fullPath h hlist, hother, hmeetings]
  refine ⟨_, rfl, ?_⟩
  apply counts_meeting
  · split_ifs <;> rfl
  · split_ifs <;> rfl

theorem compareValues_counts {e a : Data α} (he : Everywhere DictOrLeaf e) (ha : Everywhere DictOrLeaf a) :
    CountsAt py e a := by
  induction e using Document.of_children generalizing a with
  | h e ih =>
    obtain ⟨hregular, hbelow⟩ := he
    obtain ⟨hregular', hbelow'⟩ := ha
    by_cases hboth : ∀ entries actual, e = .dict entries → a = .dict actual → False
    · exact countsAt_other hregular' hboth
    · push Not at hboth
      obtain ⟨entries, actual, rfl, rfl, -⟩ := hboth
      apply countsAt_dict hregular hregular'
      intro child hchild a' ha'
      exact ih child hchild (hbelow child hchild) (hbelow' _ (Assoc.mem_of_get? ha'))

end counts

section present
variable [BEq α]

/-- A leaf of the first is at the same path in the second, with an equal value. -/
def Present (e a : Data α) : Prop :=
  ∃ path leaf value, e.get? path = some (.leaf leaf) ∧ a.get? path = some value ∧
    (Document.leaf leaf : Data α).eqv value = true

/-- Equal values with a leaf, one of which is empty or a leaf, are leaves. -/
lemma present_meeting {e a : Data α} (h : ∀ entries actual, e = .dict entries → a = .dict actual →
    entries = []) (he : DictOrLeaf e) (ha : DictOrLeaf a) (fullPath : Text) :
    Present e a ↔ 0 < countLeaves (equal [((fullPath, ⟨e, a⟩) : Text × Mismatch α)]) := by
  have hequal : 0 < countLeaves (equal [((fullPath, ⟨e, a⟩) : Text × Mismatch α)]) ↔
      e.eqv a = true ∧ 0 < (Document.tips false e).length := by
    rw [countLeaves_pos, equal]
    simp [and_comm]
  rw [hequal]
  cases e with
  | leaf x =>
    constructor
    · rintro ⟨path, leaf, value, hleaf, hvalue, heqv⟩
      cases path with
      | nil =>
        cases hleaf
        cases hvalue
        exact ⟨heqv, by simp [Document.tips]⟩
      | cons s path => cases hleaf
    · rintro ⟨heqv, -⟩
      exact ⟨[], x, a, rfl, rfl, heqv⟩
  | dict entries =>
    constructor
    · rintro ⟨path, leaf, value, hleaf, hvalue, -⟩
      cases path with
      | nil => cases hleaf
      | cons s path =>
        cases a with
        | dict actual =>
          obtain rfl := h entries actual rfl rfl
          cases hleaf
        | leaf y => cases hvalue
        | seq kind items => exact ha.elim
    · rintro ⟨heqv, hpos⟩
      cases a with
      | dict actual =>
        obtain rfl := h entries actual rfl rfl
        simp [Document.tips, Document.entryTips] at hpos
      | _ => simp [Document.eqv] at heqv
  | seq kind items => exact he.elim

/-- The meetings tell whether a leaf of these two values is present. -/
def PresentAt (e a : Data α) : Prop :=
  ∀ fullPath, Present e a ↔ 0 < countLeaves (equal (meetings e a fullPath))

lemma present_dict {entries actual : List (Slot Text × Data α)} (h : (entries.map Prod.fst).Nodup) :
    Present (.dict entries : Data α) (.dict actual) ↔
      ∃ child ∈ entries, ∃ a, Assoc.get? child.1 actual = some a ∧ Present child.2 a := by
  constructor
  · rintro ⟨path, leaf, value, hleaf, hvalue, heqv⟩
    cases path with
    | nil => cases hleaf
    | cons s path =>
      obtain ⟨d, hd, hleaf⟩ := Option.bind_eq_some_iff.mp hleaf
      obtain ⟨a, ha, hvalue⟩ := Option.bind_eq_some_iff.mp hvalue
      exact ⟨(s, d), Assoc.mem_of_get? hd, a, ha, path, leaf, value, hleaf, hvalue, heqv⟩
  · rintro ⟨child, hchild, a, ha, path, leaf, value, hleaf, hvalue, heqv⟩
    refine ⟨child.1 :: path, leaf, value, ?_, ?_, heqv⟩
    · rw [Document.get?, Document.children, Assoc.get?_of_mem h hchild]
      exact hleaf
    · rw [Document.get?, Document.children, ha]
      exact hvalue

lemma entryMeetings_pos (pre : Option Text) (entries actual : List (Slot Text × Data α))
    (hentries : ∀ entry ∈ entries, ∃ key, entry.1 = .name key)
    (h : ∀ child ∈ entries, ∀ a, Assoc.get? child.1 actual = some a → PresentAt child.2 a) :
    (∃ child ∈ entries, ∃ a, Assoc.get? child.1 actual = some a ∧ Present child.2 a) ↔
      0 < countLeaves (equal (entryMeetings entries actual pre)) := by
  induction entries with
  | nil => simp [entryMeetings, equal, countLeaves]
  | cons entry entries ih =>
    obtain ⟨s, d⟩ := entry
    rw [List.forall_mem_cons] at hentries h
    obtain ⟨fullPath, hpath⟩ := exists_keyPath pre hentries.1
    rw [List.exists_mem_cons_iff, ih hentries.2 h.2, entryMeetings, hpath]
    cases hget : Assoc.get? s actual with
    | none => simp
    | some a =>
      have hfirst : Present d a ↔ 0 < countLeaves (equal (meetings d a fullPath)) := h.1 a hget fullPath
      have happend : equal (meetings d a fullPath ++ entryMeetings entries actual pre) =
          equal (meetings d a fullPath) ++ equal (entryMeetings entries actual pre) := List.filter_append _ _
      dsimp only
      rw [happend, countLeaves_append, Nat.add_pos_iff_pos_or_pos, ← hfirst]
      simp

lemma presentAt_dict {entries actual : List (Slot Text × Data α)}
    (hentries : DictOrLeaf (.dict entries : Data α)) (hactual : DictOrLeaf (.dict actual : Data α))
    (h : ∀ child ∈ entries, ∀ a, Assoc.get? child.1 actual = some a → PresentAt child.2 a) :
    PresentAt (.dict entries : Data α) (.dict actual) := by
  intro fullPath
  rw [meetings]
  split_ifs with hempty
  · apply present_meeting _ hentries hactual
    intro entries' actual' heq _
    cases heq
    exact List.isEmpty_iff.mp hempty
  · rw [present_dict hentries.1]
    exact entryMeetings_pos (some fullPath) entries actual hentries.2 h

theorem presentAt {e a : Data α} (he : Everywhere DictOrLeaf e) (ha : Everywhere DictOrLeaf a) :
    PresentAt e a := by
  induction e using Document.of_children generalizing a with
  | h e ih =>
    obtain ⟨hregular, hbelow⟩ := he
    obtain ⟨hregular', hbelow'⟩ := ha
    by_cases hboth : ∀ entries actual, e = .dict entries → a = .dict actual → False
    · intro fullPath
      rw [meetings.eq_2 e a fullPath hboth]
      apply present_meeting _ hregular hregular'
      intro entries actual he' ha'
      exact (hboth entries actual he' ha').elim
    · push Not at hboth
      obtain ⟨entries, actual, rfl, rfl, -⟩ := hboth
      apply presentAt_dict hregular hregular'
      intro child hchild a' ha'
      exact ih child hchild (hbelow child hchild) (hbelow' _ (Assoc.mem_of_get? ha'))

end present

namespace LeafDict
variable [BEq α] (notExpected actual : LeafDict α)

/-- Where values of both meet that are not compared key by key. -/
def meetings : List (Text × Mismatch α) := entryMeetings notExpected.entries actual.entries none

/-- The number of leaves of the first that meet equal values. -/
def equalLeaves : ℕ := countLeaves (equal (notExpected.meetings actual))

/-- The number of leaves of the first in values that meet different ones. -/
def differingLeaves : ℕ := countLeaves (differing (notExpected.meetings actual))

/-- The number of path texts at which, as the last of the different values that meet there, `None` meets
something else. -/
def noneTexts (py : AssertionBuiltins α) : ℕ :=
  let noted := differing (notExpected.meetings actual)
  ((noted.map Prod.fst).dedup.filter fun path =>
    (Assoc.get? path noted.reverse).any fun m => isNone py m.actual && !isNone py m.expected).length

/-- The code notes the different values in a dict, in which a text stands for its last values. -/
lemma length_noneFields (py : AssertionBuiltins α) :
    (noneFields py (Assoc.ofPairs (differing (notExpected.meetings actual)))).length =
      notExpected.noneTexts actual py := by
  have hkeys := Assoc.nodup_ofPairs (differing (notExpected.meetings actual))
  apply List.Perm.length_eq
  apply (List.perm_ext_iff_of_nodup ?_ ?_).mpr
  · intro path
    simp only [noneFields, List.mem_map, List.mem_filter, List.mem_dedup, Option.any_eq_true]
    constructor
    · rintro ⟨⟨path, m⟩, ⟨hmem, hnone⟩, rfl⟩
      have hget := Assoc.get?_of_mem hkeys hmem
      rw [Assoc.get?_ofPairs] at hget
      exact ⟨⟨_, List.mem_reverse.mp (Assoc.mem_of_get? hget), rfl⟩, m, hget, hnone⟩
    · rintro ⟨-, m, hget, hnone⟩
      rw [← Assoc.get?_ofPairs] at hget
      exact ⟨_, ⟨Assoc.mem_of_get? hget, hnone⟩, rfl⟩
  · exact hkeys.sublist (List.filter_sublist.map _)
  · exact (List.nodup_dedup _).filter _

lemma countLeaves_eq (l : List (Text × Mismatch α)) :
    countLeaves l = countLeaves (equal l) + countLeaves (differing l) := by
  induction l with
  | nil => rfl
  | cons entry l ih =>
    have hcons (l : List (Text × Mismatch α)) : countLeaves (entry :: l) =
        (Document.tips false entry.2.expected).length + countLeaves l := by
      simp [countLeaves]
    rw [hcons, ih, equal, equal, differing, differing, List.filter_cons, List.filter_cons]
    cases entry.2.expected.eqv entry.2.actual
    · simp only [Bool.not_false, Bool.false_eq_true, if_true, if_false, hcons]
      omega
    · simp only [Bool.not_true, Bool.false_eq_true, if_true, if_false, hcons]
      omega

lemma present_iff : Present notExpected.data actual.data ↔ 0 < notExpected.equalLeaves actual := by
  obtain ⟨entries, hregular, hbelow⟩ := notExpected
  obtain ⟨actual, hregular', hbelow'⟩ := actual
  have hpos := entryMeetings_pos none entries actual hregular.2 fun child hchild a ha =>
    presentAt (hbelow child hchild) (hbelow' _ (Assoc.mem_of_get? ha))
  exact (present_dict hregular.1).trans hpos

/-- The assertion passes if its two counts agree. -/
lemma assertNotExpected_eq_ok (py : AssertionBuiltins α) (msg : Option Text) :
    assertNotExpected py notExpected.data actual.data msg = .ok () ↔
      notExpected.equalLeaves actual + notExpected.differingLeaves actual =
        notExpected.noneTexts actual py := by
  have hregular := notExpected.regular
  have hregular' := actual.regular
  obtain ⟨hregular, hbelow⟩ := hregular
  obtain ⟨hregular', hbelow'⟩ := hregular'
  obtain ⟨c, hc, hmissing, hvalues⟩ := checkEntries_counts py none hregular hregular'
    fun child hchild a ha => compareValues_counts (hbelow child hchild) (hbelow' _ (Assoc.mem_of_get? ha))
  have hcheck : checkSubsetDict py true notExpected.data actual.data = .ok c := hc
  have hpaths : (getAllPaths py.toBuiltins [] false notExpected.data).length =
      (Document.entryTips false notExpected.entries).length := by
    rw [length_getAllPaths, data, Document.tips]
    rfl
  have hnone : (noneFields py c.values).length = notExpected.noneTexts actual py := by
    rw [Comparison.values, hvalues]
    exact notExpected.length_noneFields actual py
  have hsum : countLeaves (entryMeetings notExpected.entries actual.entries none) =
      notExpected.equalLeaves actual + notExpected.differingLeaves actual := countLeaves_eq _
  rw [assertNotExpected, hcheck]
  dsimp only
  rw [List.length_append, hnone, hpaths, ← hmissing, hsum]
  split_ifs with h
  · simp only [false_iff]
    intro heq
    exact h (by rw [heq])
  · simp only [true_iff]
    push Not at h
    exact (Nat.add_left_cancel h).symm

end LeafDict

/-- `assert_not_expected` passes exactly when nothing unwanted is there, if with no equal leaf the different
values have as many leaves as there are texts of paths to `None`, and with an equal one that is not so for
both kinds of leaves together. -/
theorem assertNotExpected_eq_iff [BEq α] (py : AssertionBuiltins α) (notExpected actual : LeafDict α)
    (msg : Option Text) :
    (assertNotExpected py notExpected.data actual.data msg = .ok () ↔
        ¬Present notExpected.data actual.data) ↔
      (notExpected.equalLeaves actual = 0 ∧
          notExpected.differingLeaves actual = notExpected.noneTexts actual py) ∨
        (0 < notExpected.equalLeaves actual ∧
          notExpected.equalLeaves actual + notExpected.differingLeaves actual ≠
            notExpected.noneTexts actual py) := by
  rw [LeafDict.assertNotExpected_eq_ok, LeafDict.present_iff]
  omega

/-- A dict with one key and a number. -/
def numberDict (n : ℕ) : LeafDict (Option ℕ) where
  entries := [(.name (text "a"), .leaf (some n))]
  regular := by
    refine .intro ⟨List.nodup_singleton _, ?_⟩ ?_
    · exact List.forall_mem_singleton.mpr ⟨_, rfl⟩
    · exact List.forall_mem_singleton.mpr (.intro trivial nofun)

/-- A key that is there with another number. -/
theorem not_assertNotExpected_eq :
    ¬(assertNotExpected numberBuiltins (numberDict 1).data (numberDict 2).data none = .ok () ↔
      ¬Present (numberDict 1).data (numberDict 2).data) := by
  rw [LeafDict.assertNotExpected_eq_ok, LeafDict.present_iff]
  decide

end Assertions
end PySOA
