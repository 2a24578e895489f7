import PySOA.Test.Assertions
import PySOA.Test.PathRoundTrip

/-! When `assert_exact_structure` passes: the two structures are equal but for keys that only one of them has
and whose values hold no leaf. -/
namespace PySOA
open Utf8 (Text)
open Document (Everywhere Regular AgreeUpTo ChildrenAgree)

lemma sorted_eq_nil {l : List Text} : sorted l = [] ↔ l = [] := by
  rw [← List.length_eq_zero_iff, ← List.length_eq_zero_iff, sorted, List.length_insertionSort]

namespace Comparison
variable {α : Type}

/-- No path was collected. -/
def Clean (c : Comparison α) : Prop := c.missing = [] ∧ c.mismatching = [] ∧ c.extra = []

variable {c sub : Comparison α}

@[simp] lemma clean_empty : ({} : Comparison α).Clean := ⟨rfl, rfl, rfl⟩

@[simp] lemma clean_sort : c.sort.Clean ↔ c.Clean := by
  simp [Clean, sort, sorted_eq_nil]

@[simp] lemma clean_extend : (c.extend sub).Clean ↔ c.Clean ∧ sub.Clean := by
  simp only [Clean, extend, List.append_eq_nil_iff]
  constructor
  · rintro ⟨⟨h₁, h₁'⟩, ⟨h₂, h₂'⟩, h₃, h₃'⟩
    exact ⟨⟨h₁, h₂, h₃⟩, h₁', h₂', h₃'⟩
  · rintro ⟨⟨h₁, h₂, h₃⟩, h₁', h₂', h₃'⟩
    exact ⟨⟨h₁, h₁'⟩, ⟨h₂, h₂'⟩, h₃, h₃'⟩

@[simp] lemma clean_extra {extra : List Text} : ({ extra } : Comparison α).Clean ↔ extra = [] := by
  simp [Clean]

@[simp] lemma clean_missing {missing : List Text} : ({ missing } : Comparison α).Clean ↔ missing = [] := by
  simp [Clean]

@[simp] lemma not_clean_mismatch (fullPath : Text) (expectedVal actualVal : Data α) :
    ¬(mismatch fullPath expectedVal actualVal).Clean := by
  simp [Clean, mismatch]

end Comparison

namespace Assertions
open Paths (text dot getAllPaths getEntryPaths getItemPaths getItemPaths_eq)
variable {α : Type}

section paths
variable (py : Builtins α)

lemma length_getEntryPaths (entries : List (Slot Text × Data α))
    (h : ∀ child ∈ entries, ∀ path,
      (getAllPaths py path false child.2).length = (Document.tips false child.2).length) (path : Text) :
    (getEntryPaths py path false entries).length = (Document.entryTips false entries).length := by
  induction entries with
  | nil =>
    rw [getEntryPaths, Document.entryTips]
    rfl
  | cons entry entries ih =>
    obtain ⟨s, d⟩ := entry
    rw [getEntryPaths, Document.entryTips, List.length_append, List.length_append, List.length_map,
      h (s, d) List.mem_cons_self, ih fun child hchild => h child (List.mem_cons_of_mem _ hchild)]

/-- There are as many paths as leaves. -/
lemma length_getAllPaths (d : Data α) (path : Text) :
    (getAllPaths py path false d).length = (Document.tips false d).length := by
  induction d using Document.of_children generalizing path with
  | h d ih =>
    cases d with
    | leaf a => rw [getAllPaths, Document.tips, List.length_singleton, List.length_singleton]
    | dict entries =>
      have hentries := length_getEntryPaths py entries ih path
      simpa [getAllPaths, Document.tips] using hentries
    | seq kind items =>
      have hitems := length_getEntryPaths py (Document.indexed 0 items) ih path
      rw [← getItemPaths_eq, ← Document.itemTips_eq] at hitems
      simpa [getAllPaths, Document.tips] using hitems

lemma getAllPaths_eq_nil {d : Data α} {path : Text} :
    getAllPaths py path false d = [] ↔ Document.tips false d = [] := by
  rw [← List.length_eq_zero_iff, ← List.length_eq_zero_iff, length_getAllPaths]

end paths

/-- An entry of a dict whose value holds no leaf: empty dicts and lists, perhaps nested. -/
def Spare (child : Slot Text × Data α) : Prop :=
  (∃ key, child.1 = .name key) ∧ Document.tips false child.2 = []

section compare
variable {py : AssertionBuiltins α}

lemma exists_keyPath (pre : Option Text) {s : Slot Text} (h : ∃ key, s = .name key) :
    ∃ fullPath, keyPath pre s = .ok fullPath := by
  obtain ⟨key, rfl⟩ := h
  exact ⟨_, rfl⟩

lemma missingPaths_eq_nil {fullPath : Text} {expectedVal : Data α} :
    missingPaths py fullPath expectedVal = [] ↔ Document.tips false expectedVal = [] := by
  rw [missingPaths, List.map_eq_nil_iff, getAllPaths_eq_nil]

variable (py) in
lemma extraEntries_exact (pre : Option Text) (expected : List (Slot Text × Data α))
    {actual : List (Slot Text × Data α)} (hactual : ∀ entry ∈ actual, ∃ key, entry.1 = .name key) :
    ∃ paths, extraEntries py pre expected actual = .ok paths ∧
      (paths = [] ↔ ∀ entry ∈ actual, entry.1 ∉ expected.map Prod.fst →
        Document.tips false entry.2 = []) := by
  induction actual with
  | nil => exact ⟨[], rfl, by simp⟩
  | cons entry actual ih =>
    obtain ⟨s, d⟩ := entry
    rw [List.forall_mem_cons] at hactual
    obtain ⟨fullPath, hpath⟩ := exists_keyPath pre hactual.1
    obtain ⟨paths, hpaths, hiff⟩ := ih hactual.2
    rw [extraEntries, hpath]
    dsimp only
    rw [hpaths]
    refine ⟨_, rfl, ?_⟩
    rw [List.append_eq_nil_iff, hiff, List.forall_mem_cons]
    apply and_congr_left
    intro _
    split_ifs with hmem
    · simp [hmem]
    · simp only [hmem, not_false_iff, true_imp_iff]
      exact getAllPaths_eq_nil _

lemma not_clean_unexpected (fullPath : Text) (e a : Data α) : ¬(unexpected py fullPath e a).Clean := by
  simp [Comparison.Clean, unexpected, Comparison.mismatch]

variable (py) in
lemma finishEntries_exact (pre : Option Text) (expected : List (Slot Text × Data α))
    {actual : List (Slot Text × Data α)}
    (hactual : ∀ entry ∈ actual, ∃ key, entry.1 = .name key) (c : Comparison α) :
    ∃ c', finishEntries py pre expected actual (.ok c) = .ok c' ∧ (c'.Clean ↔ c.Clean ∧
      ∀ entry ∈ actual, entry.1 ∉ expected.map Prod.fst → Document.tips false entry.2 = []) := by
  obtain ⟨paths, hpaths, hiff⟩ := extraEntries_exact py pre expected hactual
  unfold finishEntries
  rw [hpaths]
  refine ⟨_, rfl, ?_⟩
  rw [Comparison.clean_sort, Comparison.clean_extend, Comparison.clean_extra, hiff]

lemma finishItems_exact (pre : Option Text) {expected actual : List (Data α)} (c : Comparison α) :
    (finishItems pre expected actual c).Clean ↔ c.Clean ∧ actual.length ≤ expected.length := by
  rw [finishItems, Comparison.clean_sort, Comparison.clean_extend, Comparison.clean_extra,
    List.map_eq_nil_iff, List.range'_eq_nil_iff]
  apply and_congr_right
  intro _
  omega

variable [BEq α]

variable (py) in
/-- What holds of the comparison of no entries, and goes on to hold with each further entry, holds of what the
loop over the entries collects. -/
lemma compareEntries_rule {subsetLists : Bool} {pre : Option Text} {expected actual : List (Slot Text × Data α)}
    {P : List (Slot Text × Data α) → Comparison α → Prop}
    (hexpected : ∀ entry ∈ expected, ∃ key, entry.1 = .name key) (hnil : P [] {})
    (hmissing : ∀ s d fullPath entries c, keyPath pre s = .ok fullPath → Assoc.get? s actual = none →
      P entries c → P ((s, d) :: entries) (Comparison.extend { missing := missingPaths py fullPath d } c))
    (hvalue : ∀ s d fullPath entries c a, (s, d) ∈ expected → keyPath pre s = .ok fullPath →
      Assoc.get? s actual = some a → P entries c →
      ∃ sub, compareValues py subsetLists d a fullPath = .ok sub ∧ P ((s, d) :: entries) (sub.extend c)) :
    ∃ c, compareEntries py subsetLists expected actual pre = .ok c ∧ P expected c := by
  induction expected with
  | nil => exact ⟨{}, by rw [compareEntries], hnil⟩
  | cons entry expected ih =>
    obtain ⟨s, d⟩ := entry
    rw [List.forall_mem_cons] at hexpected
    obtain ⟨fullPath, hpath⟩ := exists_keyPath pre hexpected.1
    obtain ⟨rest, hrest, hP⟩ := ih hexpected.2 fun s d fullPath entries c a hmem =>
      hvalue s d fullPath entries c a (List.mem_cons_of_mem _ hmem)
    rw [compareEntries, hpath]
    dsimp only
    cases hget : Assoc.get? s actual with
    | none =>
      dsimp only
      rw [hrest]
      exact ⟨_, rfl, hmissing s d fullPath expected rest hpath hget hP⟩
    | some a =>
      obtain ⟨sub, hsub, hcons⟩ := hvalue s d fullPath expected rest a List.mem_cons_self hpath hget hP
      dsimp only
      rw [hsub, hrest]
      exact ⟨_, rfl, hcons⟩

variable (py) in
/-- The loop over the entries collects nothing if the values that are there agree, and the others hold
no leaf. -/
lemma compareEntries_exact (pre : Option Text) {expected actual : List (Slot Text × Data α)}
    (hexpected : ∀ entry ∈ expected, ∃ key, entry.1 = .name key)
    (h : ∀ child ∈ expected, ∀ a path, Assoc.get? child.1 actual = some a →
      ∃ c, compareValues py false child.2 a path = .ok c ∧ (c.Clean ↔ AgreeUpTo Spare child.2 a)) :
    ∃ c, compareEntries py false expected actual pre = .ok c ∧ (c.Clean ↔ ∀ child ∈ expected,
      (∀ a, Assoc.get? child.1 actual = some a → AgreeUpTo Spare child.2 a) ∧
        (Assoc.get? child.1 actual = none → Document.tips false child.2 = [])) := by
  apply compareEntries_rule py hexpected
  · simp
  · intro s d fullPath entries c _ hget hiff
    rw [Comparison.clean_extend, hiff, List.forall_mem_cons, Comparison.clean_missing, missingPaths_eq_nil,
      hget]
    simp
  · intro s d fullPath entries c a hmem _ hget hiff
    obtain ⟨sub, hsub, hagree⟩ := h (s, d) hmem a fullPath hget
    refine ⟨sub, hsub, ?_⟩
    rw [Comparison.clean_extend, hiff, List.forall_mem_cons, hagree, hget]
    simp

variable (py) in
/-- The loop over the items collects nothing if there is an item in each place, and it agrees. -/
lemma compareItems_exact (pre : Option Text) {expected actual : List (Data α)} (i : ℕ)
    (h : ∀ d ∈ expected, ∀ a ∈ actual, ∀ path,
      ∃ c, compareValues py false d a path = .ok c ∧ (c.Clean ↔ AgreeUpTo Spare d a)) :
    ∃ c, compareItems py false expected actual pre i = .ok c ∧ (c.Clean ↔
      ∀ (j : ℕ) (d : Data α), expected[j]? = some d → ∃ a, actual[i+j]? = some a ∧ AgreeUpTo Spare d a) := by
  induction expected generalizing i with
  | nil => exact ⟨{}, by rw [compareItems], by simp⟩
  | cons d expected ih =>
    rw [List.forall_mem_cons] at h
    obtain ⟨rest, hrest, hiff⟩ := ih (i+1) h.2
    have hplaces (P : Prop) (hP : P ↔ ∃ a, actual[i]? = some a ∧ AgreeUpTo Spare d a) :
        (P ∧ ∀ (j : ℕ) (d : Data α), expected[j]? = some d →
            ∃ a, actual[i+1+j]? = some a ∧ AgreeUpTo Spare d a) ↔
          ∀ (j : ℕ) (d' : Data α), (d :: expected)[j]? = some d' →
            ∃ a, actual[i+j]? = some a ∧ AgreeUpTo Spare d' a := by
      rw [hP]
      constructor
      · rintro ⟨hfirst, hlater⟩ j d' hd'
        cases j with
        | zero =>
          cases hd'
          exact hfirst
        | succ j =>
          have hplace : i + (j+1) = i + 1 + j := by omega
          rw [hplace]
          exact hlater j d' hd'
      · intro hall
        refine ⟨hall 0 d rfl, ?_⟩
        intro j d' hd'
        have hplace : i + 1 + j = i + (j+1) := by omega
        rw [hplace]
        exact hall (j+1) d' hd'
    rw [compareItems, Bool.false_and, if_neg Bool.false_ne_true]
    cases hget : actual[i]? with
    | none =>
      dsimp only
      rw [hrest]
      refine ⟨_, rfl, ?_⟩
      rw [Comparison.clean_extend, hiff]
      apply hplaces
      simp [hget]
    | some a =>
      obtain ⟨c, hc, hagree⟩ := h.1 a (List.mem_of_getElem? hget) (itemPath pre i)
      dsimp only
      rw [hc, hrest]
      refine ⟨_, rfl, ?_⟩
      rw [Comparison.clean_extend, hiff]
      apply hplaces
      rw [hagree, hget]
      simp

/-- Two dicts agree if the values of the first agree with those of the second or are spare, and the other
values of the second are spare. -/
lemma childrenAgree_dict {entries actual : List (Slot Text × Data α)}
    (hentries : Regular SequenceKind.list (.dict entries : Data α))
    (hactual : Regular SequenceKind.list (.dict actual : Data α)) :
    ChildrenAgree Spare (.dict entries : Data α) (.dict actual) ↔
      (∀ child ∈ entries, (∀ a, Assoc.get? child.1 actual = some a → AgreeUpTo Spare child.2 a) ∧
        (Assoc.get? child.1 actual = none → Document.tips false child.2 = [])) ∧
      ∀ entry ∈ actual, entry.1 ∉ entries.map Prod.fst → Document.tips false entry.2 = [] := by
  constructor
  · rintro ⟨hcommon, hleft, hright⟩
    refine ⟨?_, fun entry hentry hmissing => (hright entry hentry hmissing).2⟩
    intro child hchild
    refine ⟨fun a ha => hcommon child.1 child.2 a (Assoc.get?_of_mem hentries.1 hchild) ha, ?_⟩
    intro hnone
    apply (hleft child hchild _).2
    intro hmem
    obtain ⟨entry, hentry, hslot⟩ := List.mem_map.mp hmem
    have hget := Assoc.get?_of_mem hactual.1 hentry
    rw [hslot, hnone] at hget
    cases hget
  · rintro ⟨hexpected, hextra⟩
    refine ⟨?_, ?_, fun entry hentry hmissing => ⟨hactual.2 entry hentry, hextra entry hentry hmissing⟩⟩
    · intro s d a hd ha
      exact (hexpected _ (Assoc.mem_of_get? hd)).1 a ha
    · intro child hchild hmissing
      exact ⟨hentries.2 child hchild, (hexpected child hchild).2 (Assoc.get?_of_notMem hmissing)⟩

/-- Two lists agree if they are as long and their items agree, place by place. -/
lemma childrenAgree_list {items actual : List (Data α)} :
    ChildrenAgree Spare (.seq .list items : Data α) (.seq .list actual) ↔
      (∀ (j : ℕ) (d : Data α), items[j]? = some d → ∃ a, actual[j]? = some a ∧ AgreeUpTo Spare d a) ∧
        actual.length ≤ items.length := by
  have hspare {j : ℕ} {d : Data α} : ¬Spare (.index j, d) := by
    rintro ⟨⟨key, hkey⟩, -⟩
    cases hkey
  constructor
  · rintro ⟨hcommon, hleft, hright⟩
    constructor
    · intro j d hd
      obtain ⟨hj, -⟩ := List.getElem?_eq_some_iff.mp hd
      by_cases hin : j < actual.length
      · refine ⟨actual[j], List.getElem?_eq_getElem hin, ?_⟩
        exact hcommon (.index j) d _ ((Document.get?_indexed items j).trans hd)
          ((Document.get?_indexed actual j).trans (List.getElem?_eq_getElem hin))
      · have hchild : (Slot.index j, d) ∈ Document.indexed 0 items :=
          Document.mem_indexed.mpr ⟨j, by simp, hd⟩
        have hmissing : Slot.index j ∉ (Document.indexed 0 actual).map Prod.fst :=
          Document.index_mem_indexed.not.mpr hin
        exact absurd (hleft _ hchild hmissing) hspare
    · by_contra hlt
      have hin : items.length < actual.length := by omega
      have hchild : (Slot.index items.length, actual[items.length]) ∈ Document.indexed 0 actual :=
        Document.mem_indexed.mpr ⟨items.length, by simp, List.getElem?_eq_getElem hin⟩
      have hmissing : Slot.index items.length ∉ (Document.indexed 0 items).map Prod.fst :=
        Document.index_mem_indexed.not.mpr (Nat.lt_irrefl _)
      exact absurd (hright _ hchild hmissing) hspare
  · rintro ⟨hitems, hlength⟩
    have hsame {j : ℕ} : j < items.length ↔ j < actual.length := by
      constructor
      · intro hj
        obtain ⟨a, ha, -⟩ := hitems j _ (List.getElem?_eq_getElem hj)
        exact (List.getElem?_eq_some_iff.mp ha).1
      · intro hj
        omega
    refine ⟨?_, ?_, ?_⟩
    · intro s d a hd ha
      obtain ⟨j, hindex, hitem⟩ := Document.mem_indexed.mp (Assoc.mem_of_get? hd)
      cases hindex
      obtain ⟨a', ha', hagree⟩ := hitems j d hitem
      rw [Nat.zero_add, Document.children, Document.get?_indexed, ha'] at ha
      cases ha
      exact hagree
    · intro child hchild hmissing
      obtain ⟨j, hindex, hitem⟩ := Document.mem_indexed.mp hchild
      rw [hindex, Nat.zero_add, Document.children, Document.index_mem_indexed, ← hsame] at hmissing
      exact absurd (List.getElem?_eq_some_iff.mp hitem).1 hmissing
    · intro child hchild hmissing
      obtain ⟨j, hindex, hitem⟩ := Document.mem_indexed.mp hchild
      rw [hindex, Nat.zero_add, Document.children, Document.index_mem_indexed, hsame] at hmissing
      exact absurd (List.getElem?_eq_some_iff.mp hitem).1 hmissing

/-- Other values are compared by equality, and equality is what they agree by. -/
lemma compareOther_exact {e a : Data α} (fullPath : Text) :
    (compareOther py false e a fullPath).Clean ↔ e.eqv a = true := by
  have hequal : (if e.eqv a then ({} : Comparison α) else .mismatch fullPath e a).Clean ↔ e.eqv a = true := by
    split_ifs with h <;> simp [h]
  unfold compareOther
  cases a with
  | seq kind items => cases kind <;> exact hequal
  | _ => exact hequal

/-- Neither both are dicts nor both are lists. -/
def Unlike (e a : Data α) : Prop :=
  (∀ entries actual, e = .dict entries → a = .dict actual → False) ∧
    ∀ items actual, e = .seq .list items → a = .seq .list actual → False

lemma agreeUpTo_of_unlike {e a : Data α} (h : Unlike e a) (he : Regular .list e) (ha : Regular .list a) :
    AgreeUpTo Spare e a ↔ e.eqv a = true := by
  rw [Document.agreeUpTo_iff]
  cases e with
  | leaf x =>
    cases a with
    | leaf y =>
      have hagree : ChildrenAgree Spare (.leaf x : Data α) (.leaf y) := by
        constructor
        · intro s d' e' hd'
          cases hd'
        · intro child hchild
          cases hchild
        · intro child hchild
          cases hchild
      simp [Document.eqv, Document.SameShape, Document.children, hagree]
    | _ => simp [Document.eqv, Document.SameShape]
  | dict entries =>
    cases a with
    | dict actual => exact (h.1 entries actual rfl rfl).elim
    | _ => simp [Document.eqv, Document.SameShape]
  | seq kind items =>
    cases a with
    | seq kind' actual =>
      obtain rfl : kind = .list := he
      obtain rfl : kind' = .list := ha
      exact (h.2 items actual rfl rfl).elim
    | _ => simp [Document.eqv, Document.SameShape]

/-- What `compareValues` collects is empty exactly if the values agree. -/
def ExactAt (py : AssertionBuiltins α) (e a : Data α) : Prop :=
  ∀ fullPath, ∃ c, compareValues py false e a fullPath = .ok c ∧ (c.Clean ↔ AgreeUpTo Spare e a)

variable (py) in
/-- The comparison of two dicts, if that of their values is right. -/
lemma checkEntries_exact (pre : Option Text) {entries actual : List (Slot Text × Data α)}
    (hentries : Regular .list (.dict entries : Data α)) (hactual : Regular .list (.dict actual : Data α))
    (h : ∀ child ∈ entries, ∀ a, Assoc.get? child.1 actual = some a → ExactAt py child.2 a) :
    ∃ c, finishEntries py pre entries actual (compareEntries py false entries actual pre) = .ok c ∧
      (c.Clean ↔ ChildrenAgree Spare (.dict entries : Data α) (.dict actual)) := by
  obtain ⟨c, hc, hexpected⟩ := compareEntries_exact py pre hentries.2
    fun child hchild a path ha => h child hchild a ha path
  obtain ⟨c', hc', hextra⟩ := finishEntries_exact py pre entries hactual.2 c
  rw [hc]
  refine ⟨c', hc', ?_⟩
  rw [hextra, hexpected, childrenAgree_dict hentries hactual]

lemma exactAt_dict {entries actual : List (Slot Text × Data α)}
    (hentries : Regular .list (.dict entries : Data α)) (hactual : Regular .list (.dict actual : Data α))
    (h : ∀ child ∈ entries, ∀ a, Assoc.get? child.1 actual = some a → ExactAt py child.2 a) :
    ExactAt py (.dict entries) (.dict actual) := by
  intro fullPath
  rw [compareValues, Document.agreeUpTo_iff]
  obtain ⟨c, hc, hagree⟩ := checkEntries_exact py (some fullPath) hentries hactual h
  cases entries with
  | nil =>
    cases actual with
    | nil =>
      refine ⟨{}, rfl, ?_⟩
      simp [childrenAgree_dict hentries hactual, Document.SameShape]
    | cons entry actual =>
      refine ⟨_, rfl, ?_⟩
      rw [Comparison.clean_sort]
      simp [not_clean_unexpected, Document.children]
  | cons entry entries =>
    refine ⟨c, hc, ?_⟩
    rw [hagree]
    simp [Document.SameShape, Document.children]

lemma exactAt_list {items actual : List (Data α)} (h : ∀ d ∈ items, ∀ a ∈ actual, ExactAt py d a) :
    ExactAt py (.seq .list items) (.seq .list actual) := by
  intro fullPath
  rw [compareValues, Document.agreeUpTo_iff]
  obtain ⟨c, hc, hitems⟩ := compareItems_exact py (some fullPath) 0 h
  cases items with
  | nil =>
    cases actual with
    | nil =>
      refine ⟨{}, rfl, ?_⟩
      simp [childrenAgree_list, Document.SameShape]
    | cons a actual =>
      refine ⟨_, rfl, ?_⟩
      rw [Comparison.clean_sort]
      simp [not_clean_unexpected, Document.children, Document.indexed]
  | cons d items =>
    rw [hc]
    refine ⟨_, rfl, ?_⟩
    rw [finishItems_exact, hitems, childrenAgree_list]
    simp [Document.SameShape, Document.children, Document.indexed]

/-- The values agree exactly if nothing is collected. -/
theorem compareValues_exact {e a : Data α} (he : Everywhere (Regular .list) e)
    (ha : Everywhere (Regular .list) a) : ExactAt py e a := by
  induction e using Document.of_children generalizing a with
  | h e ih =>
    obtain ⟨hregular, hbelow⟩ := he
    obtain ⟨hregular', hbelow'⟩ := ha
    by_cases hunlike : Unlike e a
    · intro fullPath
      rw [compareValues.eq_3 py false e a fullPath hunlike.1 hunlike.2,
        agreeUpTo_of_unlike hunlike hregular hregular']
      exact ⟨_, rfl, compareOther_exact fullPath⟩
    · obtain hdict | hlist := not_and_or.mp hunlike
      · push Not at hdict
        obtain ⟨entries, actual, rfl, rfl, -⟩ := hdict
        apply exactAt_dict hregular hregular'
        intro child hchild a' ha'
        exact ih child hchild (hbelow child hchild) (hbelow' _ (Assoc.mem_of_get? ha'))
      · push Not at hlist
        obtain ⟨items, actual, rfl, rfl, -⟩ := hlist
        apply exactAt_list
        intro d hd a' ha'
        obtain ⟨j, hj⟩ := List.mem_iff_getElem?.mp hd
        obtain ⟨j', hj'⟩ := List.mem_iff_getElem?.mp ha'
        have hchild : (Slot.index j, d) ∈ Document.indexed 0 items :=
          Document.mem_indexed.mpr ⟨j, by simp, hj⟩
        have hchild' : (Slot.index j', a') ∈ Document.indexed 0 actual :=
          Document.mem_indexed.mpr ⟨j', by simp, hj'⟩
        exact ih _ hchild (hbelow _ hchild) (hbelow' _ hchild')

end compare

/-- A dict with text keys whose values are nested of such dicts, lists and leaves. -/
structure PlainDict (α : Type) where
  entries : List (Slot Text × Data α)
  regular : Everywhere (Regular .list) (.dict entries : Data α)

namespace PlainDict

def data (d : PlainDict α) : Data α := .dict d.entries

lemma named (d : PlainDict α) : Everywhere Document.Named d.data := d.regular.mono Regular.named

end PlainDict

section exact
variable [BEq α] (py : AssertionBuiltins α)

lemma assertExactStructure_eq_ok (expected actual : PlainDict α) (msg : Option Text) :
    assertExactStructure py expected.data actual.data msg = .ok () ↔
      ChildrenAgree Spare expected.data actual.data := by
  obtain ⟨entries, hentries⟩ := expected
  obtain ⟨actual, hactual⟩ := actual
  have hbelow := hentries
  have hbelow' := hactual
  obtain ⟨hregular, hbelow⟩ := hbelow
  obtain ⟨hregular', hbelow'⟩ := hbelow'
  obtain ⟨c, hc, hagree⟩ := checkEntries_exact py none hregular hregular'
    fun child hchild a ha => compareValues_exact (hbelow child hchild) (hbelow' _ (Assoc.mem_of_get? ha))
  have hcheck : checkSubsetDict py false (.dict entries) (.dict actual) = .ok c := hc
  unfold PlainDict.data
  dsimp only
  rw [← hagree, assertExactStructure, hcheck]
  dsimp only
  split_ifs with h
  · simp only [false_iff]
    rintro ⟨hmissing, hmismatching, hextra⟩
    simp [hmissing, hmismatching, hextra] at h
  · push Not at h
    simp only [true_iff]
    exact ⟨h.1, h.2.1, h.2.2⟩

/-- The two are not equal, but differ only in keys that one of them does not have and whose values hold no
leaf. -/
def DifferInSpareOnly (e a : Data α) : Prop := e.eqv a = false ∧ ChildrenAgree Spare e a

/-- `assert_exact_structure` passes exactly on equal structures, unless the two differ in spare keys only. -/
theorem assertExactStructure_eq_iff (expected actual : PlainDict α) (msg : Option Text) :
    (assertExactStructure py expected.data actual.data msg = .ok () ↔ expected.data.eqv actual.data = true) ↔
      ¬DifferInSpareOnly expected.data actual.data := by
  rw [assertExactStructure_eq_ok, DifferInSpareOnly, not_and, Bool.eq_false_iff]
  constructor
  · intro h hne hagree
    exact hne (h.mp hagree)
  · intro h
    constructor
    · intro hagree
      by_contra hne
      exact h hne hagree
    · exact ChildrenAgree.of_eqv expected.named actual.named

/-- A dict with one key. -/
def keyDict (key : String) (value : Data (Option ℕ)) (h : Everywhere (Regular .list) value) :
    PlainDict (Option ℕ) where
  entries := [(.name (text key), value)]
  regular := by
    refine .intro ⟨by simp, by simp⟩ ?_
    intro child hchild
    obtain rfl := List.mem_singleton.mp hchild
    exact h

def emptyDict : PlainDict (Option ℕ) where
  entries := []
  regular := .intro ⟨by simp, by simp⟩ (by simp [Document.children])

/-- An expected key with an empty dict is not missed. -/
theorem not_assertExactStructure_eq :
    ¬(assertExactStructure numberBuiltins (keyDict "a" emptyDict.data emptyDict.regular).data emptyDict.data
        none = .ok () ↔
      (keyDict "a" emptyDict.data emptyDict.regular).data.eqv emptyDict.data = true) := by
  intro h
  have heqv : (keyDict "a" emptyDict.data emptyDict.regular).data.eqv emptyDict.data = true := h.mp rfl
  cases heqv

end exact
end Assertions
end PySOA
