import PySOA.Test.Paths

/-! The paths of dicts and lists lead to their leaves, and putting the leaves at their paths rebuilds
the data. -/
namespace PySOA
open Utf8 (Text CodePoint)
namespace Paths
variable {α : Type} (py : Builtins α)

section decimal

lemma val_of_isDigit {b : UInt8} (h : Bytes.isDigit b = true) :
    48 ≤ b.toNat ∧ b.toNat ≤ 57 ∧ (Fin.ofNat 0x110000 b.toNat : CodePoint).val = b.toNat := by
  have hb : 48 ≤ b.toNat ∧ b.toNat ≤ 57 := by simpa [Bytes.isDigit] using h
  refine ⟨hb.1, hb.2, Nat.mod_eq_of_lt ?_⟩
  omega

lemma val_of_mem_decimal {n : ℕ} {c : CodePoint} (h : c ∈ decimal n) : 48 ≤ c.val ∧ c.val ≤ 57 := by
  obtain ⟨b, hb, rfl⟩ := List.mem_map.mp h
  obtain ⟨hlow, hhigh, hval⟩ := val_of_isDigit (Bytes.isDigit_of_mem_decimal hb)
  rw [hval]
  exact ⟨hlow, hhigh⟩

lemma decimal_ne_nil (n : ℕ) : decimal n ≠ [] := fun h =>
  Bytes.decimal_ne_nil n (List.map_eq_nil_iff.mp h)

lemma isDigits_decimal (n : ℕ) : isDigits py (decimal n) = true := by
  have hall : (decimal n).all py.isDigit = true := by
    apply List.all_eq_true.mpr
    intro c hc
    obtain ⟨hlow, hhigh⟩ := val_of_mem_decimal hc
    exact py.isDigit_ascii c hlow hhigh
  rw [isDigits, hall, List.isEmpty_eq_false_iff.mpr (decimal_ne_nil n)]
  rfl

lemma foldlM_digits {ds : Bytes} (hds : ∀ b ∈ ds, Bytes.isDigit b = true) (k : ℕ) :
    (ds.map fun b => (Fin.ofNat 0x110000 b.toNat : CodePoint)).foldlM (fun n c =>
      match py.digit? c with
      | some d => .ok (10*n + d)
      | none => .error (.builtin "ValueError" "invalid literal for int() with base 10")) k =
    (.ok (ds.foldl (fun acc d => acc*10 + (d.toNat-48)) k) : Except PathError ℕ) := by
  induction ds generalizing k with
  | nil => rfl
  | cons b ds ih =>
    obtain ⟨hlow, hhigh, hval⟩ := val_of_isDigit (hds b List.mem_cons_self)
    have hdigit := py.digit?_ascii (Fin.ofNat 0x110000 b.toNat) (by omega) (by omega)
    rw [List.map_cons, List.foldlM_cons, hdigit, hval, List.foldl_cons, Nat.mul_comm k 10]
    exact ih (fun b hb => hds b (List.mem_cons_of_mem _ hb)) _

lemma toInt_decimal (n : ℕ) : toInt py (decimal n) = .ok n := by
  have h := foldlM_digits py (fun b (hb : b ∈ Bytes.decimal n) => Bytes.isDigit_of_mem_decimal hb) 0
  have hvalue : (Bytes.decimal n).foldl (fun acc d => acc*10 + (d.toNat-48)) 0 = n :=
    Bytes.digitsValue_decimal n
  rw [hvalue] at h
  exact h

end decimal

section elements

/-- The slots of lists, and of dicts with keys that are non-empty texts free of braces. -/
def IsPlainSlot : Slot Text → Prop
  | .name k => k ≠ [] ∧ openBrace ∉ k ∧ closeBrace ∉ k
  | .index _ => True

/-- The path that leads through the given slots. -/
def pathText : List (Slot Text) → Text
  | [] => []
  | [s] => element py s
  | s :: s' :: p => element py s ++ dot :: pathText (s' :: p)

/-- The loop goes over characters other than braces; inside braces dots are like other characters. -/
lemma scan_append {k : Text} (hopen : openBrace ∉ k) (hclose : closeBrace ∉ k) {brace : ℤ}
    (hdot : brace = 0 → dot ∉ k) (rest chars : Text) (was : Bool) :
    scan (k ++ rest) chars brace was = scan rest (chars ++ k) brace was := by
  induction k generalizing chars with
  | nil => rw [List.nil_append, List.append_nil]
  | cons c k ih =>
    have hc : c ≠ openBrace ∧ c ≠ closeBrace := by
      constructor
      · rintro rfl
        exact hopen List.mem_cons_self
      · rintro rfl
        exact hclose List.mem_cons_self
    have hcontinue : ¬(c = dot ∧ brace = 0) := by
      rintro ⟨rfl, h0⟩
      exact hdot h0 List.mem_cons_self
    rw [List.cons_append, scan, if_neg hc.1, if_neg hc.2, if_neg hcontinue,
      ih (fun h => hopen (List.mem_cons_of_mem _ h)) (fun h => hclose (List.mem_cons_of_mem _ h))
        (fun h0 h => hdot h0 (List.mem_cons_of_mem _ h)), List.append_assoc, List.singleton_append]

lemma scan_braces {k : Text} (hopen : openBrace ∉ k) (hclose : closeBrace ∉ k) (rest : Text) (was : Bool) :
    scan (openBrace :: (k ++ [closeBrace]) ++ rest) [] 0 was = scan rest k 0 true := by
  have hne : closeBrace ≠ openBrace := by decide
  rw [List.cons_append, List.append_assoc, scan, if_pos rfl, if_pos (Int.zero_add 1), Int.zero_add,
    scan_append hopen hclose (fun h => absurd h Int.one_ne_zero), List.nil_append,
    List.singleton_append, scan, if_neg hne, if_pos rfl, if_pos (Int.sub_self 1), Int.sub_self]

/-- What is behind an element: nothing, or a dot and more elements. -/
def Behind (rest : Text) (remainder : Option Text) : Prop :=
  rest = [] ∧ remainder = none ∨ ∃ path, path ≠ [] ∧ rest = dot :: path ∧ remainder = some path

lemma scan_behind {rest : Text} {remainder : Option Text} (h : Behind rest remainder) (chars : Text)
    (was : Bool) : ∃ r, scan rest chars 0 was = (chars, was, r) ∧
      (if r.isEmpty then none else some r) = remainder := by
  obtain ⟨rfl, rfl⟩ | ⟨path, hne, rfl, rfl⟩ := h
  · exact ⟨[], rfl, rfl⟩
  · refine ⟨path, ?_, if_neg ?_⟩
    · rw [scan, if_neg (by decide), if_neg (by decide), if_pos ⟨rfl, rfl⟩]
    · rw [List.isEmpty_eq_false_iff.mpr hne]
      exact Bool.false_ne_true

lemma next_of_scan {path rest nextElement : Text} {was : Bool} (hne : path ≠ [])
    (h : scan path [] 0 false = (nextElement, was, rest)) :
    pathGetNextPathElement py path =
      if !was && isDigits py nextElement then
        (toInt py nextElement).map fun n => some (.index n, if rest.isEmpty then none else some rest)
      else .ok (some (.name nextElement, if rest.isEmpty then none else some rest)) := by
  rw [pathGetNextPathElement, List.isEmpty_eq_false_iff.mpr hne, if_neg Bool.false_ne_true, h]

lemma element_ne_nil {s : Slot Text} (hs : IsPlainSlot s) : element py s ≠ [] := by
  cases s with
  | name k =>
    unfold element
    dsimp only
    split_ifs
    · exact List.cons_ne_nil _ _
    · exact hs.1
  | index i => exact decimal_ne_nil i

/-- The next element of a path is the slot that its first element stands for. -/
lemma next_element {s : Slot Text} (hs : IsPlainSlot s) {rest : Text} {remainder : Option Text}
    (hrest : Behind rest remainder) :
    pathGetNextPathElement py (element py s ++ rest) = .ok (some (s, remainder)) := by
  have hne : element py s ++ rest ≠ [] := fun h => element_ne_nil py hs (List.append_eq_nil_iff.mp h).1
  cases s with
  | name k =>
    obtain ⟨-, hopen, hclose⟩ := hs
    by_cases hbraces : (isDigits py k || k.contains dot) = true
    · obtain ⟨r, hscan, hr⟩ := scan_behind hrest k true
      have helement : element py (.name k) = openBrace :: (k ++ [closeBrace]) := if_pos hbraces
      rw [helement] at hne ⊢
      rw [next_of_scan py hne ((scan_braces hopen hclose rest false).trans hscan), hr]
      rfl
    · obtain ⟨r, hscan, hr⟩ := scan_behind hrest k false
      have helement : element py (.name k) = k := if_neg hbraces
      rw [Bool.or_eq_true, not_or] at hbraces
      have hdot : (0 : ℤ) = 0 → dot ∉ k := fun _ h => hbraces.2 (List.contains_iff_mem.mpr h)
      rw [helement] at hne ⊢
      rw [next_of_scan py hne ((scan_append hopen hclose hdot rest [] false).trans hscan), hr, if_neg]
      rw [Bool.not_false, Bool.true_and]
      exact hbraces.1
  | index i =>
    have hplain (c : CodePoint) (hc : c.val < 48 ∨ 57 < c.val) : c ∉ decimal i := by
      intro hmem
      have hval := val_of_mem_decimal hmem
      omega
    obtain ⟨r, hscan, hr⟩ := scan_behind hrest (decimal i) false
    have hdecimal : scan (decimal i ++ rest) [] 0 false = scan rest ([] ++ decimal i) 0 false :=
      scan_append (hplain openBrace (.inr (by decide))) (hplain closeBrace (.inr (by decide)))
        (fun _ => hplain dot (.inl (by decide))) rest [] false
    rw [element] at hne ⊢
    rw [next_of_scan py hne (hdecimal.trans hscan), hr, isDigits_decimal, toInt_decimal]
    rfl

lemma pathText_eq_nil {p : List (Slot Text)} (hp : ∀ s ∈ p, IsPlainSlot s) :
    pathText py p = [] ↔ p = [] := by
  cases p with
  | nil => exact iff_of_true rfl rfl
  | cons s p =>
    have hne := element_ne_nil py (hp s List.mem_cons_self)
    apply iff_of_false _ (List.cons_ne_nil s p)
    cases p with
    | nil => exact hne
    | cons s' p => exact fun h => hne (List.append_eq_nil_iff.mp h).1

/-- The next element of a path through slots is the first of them. -/
theorem next_pathText {s : Slot Text} {p : List (Slot Text)} (hp : ∀ s' ∈ s :: p, IsPlainSlot s') :
    pathGetNextPathElement py (pathText py (s :: p)) =
      .ok (some (s, if p = [] then none else some (pathText py p))) := by
  have hs := hp s List.mem_cons_self
  cases p with
  | nil =>
    have h := next_element py hs (.inl ⟨rfl, rfl⟩)
    rw [List.append_nil] at h
    exact h
  | cons s' p =>
    apply next_element py hs
    refine .inr ⟨_, ?_, rfl, rfl⟩
    intro h
    exact List.cons_ne_nil s' p
      ((pathText_eq_nil py fun s'' hs'' => hp s'' (List.mem_cons_of_mem _ hs'')).mp h)

/-- Paths through different slots are different texts. -/
theorem pathText_inj {p q : List (Slot Text)} (hp : ∀ s ∈ p, IsPlainSlot s) (hq : ∀ s ∈ q, IsPlainSlot s)
    (h : pathText py p = pathText py q) : p = q := by
  induction p generalizing q with
  | nil => exact ((pathText_eq_nil py hq).mp h.symm).symm
  | cons s p ih =>
    cases q with
    | nil => exact (pathText_eq_nil py hp).mp h
    | cons s' q =>
      have hnext := next_pathText py hp
      rw [h, next_pathText py hq] at hnext
      obtain ⟨rfl, hrest⟩ := Prod.mk.inj (Option.some.inj (Except.ok.inj hnext))
      have hp' : ∀ s ∈ p, IsPlainSlot s := fun s hs => hp s (List.mem_cons_of_mem _ hs)
      have hq' : ∀ s ∈ q, IsPlainSlot s := fun s hs => hq s (List.mem_cons_of_mem _ hs)
      by_cases hp0 : p = [] <;> by_cases hq0 : q = []
      · rw [hp0, hq0]
      · rw [if_pos hp0, if_neg hq0] at hrest
        cases hrest
      · rw [if_neg hp0, if_pos hq0] at hrest
        cases hrest
      · rw [if_neg hp0, if_neg hq0] at hrest
        rw [ih hp' hq' (Option.some.inj hrest).symm]

/-- `_dot_join` adds an element at the end. -/
lemma dotJoin_pathText {p : List (Slot Text)} (hp : ∀ s ∈ p, IsPlainSlot s) (s : Slot Text) :
    dotJoin (pathText py p) (element py s) = pathText py (p ++ [s]) := by
  induction p with
  | nil => rfl
  | cons s' p ih =>
    have hrest := ih fun s'' hs'' => hp s'' (List.mem_cons_of_mem _ hs'')
    have hne : (pathText py (s' :: p)).isEmpty = false := by
      rw [List.isEmpty_eq_false_iff, Ne, pathText_eq_nil py hp]
      exact List.cons_ne_nil s' p
    rw [dotJoin, hne, if_neg Bool.false_ne_true]
    cases p with
    | nil => rfl
    | cons s'' p =>
      have hne' : (pathText py (s'' :: p)).isEmpty = false := by
        rw [List.isEmpty_eq_false_iff, Ne, pathText_eq_nil py fun s hs => hp s (List.mem_cons_of_mem _ hs)]
        exact List.cons_ne_nil s'' p
      rw [dotJoin, hne', if_neg Bool.false_ne_true] at hrest
      have hcons : pathText py (s' :: s'' :: p ++ [s]) = element py s' ++ dot :: pathText py (s'' :: p ++ [s]) :=
        rfl
      rw [hcons, ← hrest, pathText, List.append_assoc, List.cons_append]

end elements

section plain

/-- Dicts and lists only, and the keys of a dict are non-empty texts free of braces. As in any dict they
are distinct. -/
def IsPlain : Data α → Prop
  | .leaf _ => True
  | .dict entries => (entries.map Prod.fst).Nodup ∧
      ∀ entry ∈ entries, ∃ k, entry.1 = .name k ∧ k ≠ [] ∧ openBrace ∉ k ∧ closeBrace ∉ k
  | .seq kind _ => kind = .list

lemma IsPlain.regular {d : Data α} (h : IsPlain d) : Document.Regular .list d := by
  cases d with
  | leaf a => trivial
  | dict entries =>
    refine ⟨h.1, ?_⟩
    intro entry hentry
    obtain ⟨k, hk, -⟩ := h.2 entry hentry
    exact ⟨k, hk⟩
  | seq kind items => exact h

lemma IsPlain.named {d : Data α} (h : IsPlain d) : d.Named := by
  cases d with
  | leaf a => exact List.nodup_nil
  | dict entries => exact h.1
  | seq kind items => exact Document.nodup_indexed 0 items

lemma IsPlain.isPlainSlot {d : Data α} (h : IsPlain d) {child : Slot Text × Data α}
    (hchild : child ∈ d.children) : IsPlainSlot child.1 := by
  cases d with
  | leaf a => cases hchild
  | dict entries =>
    obtain ⟨k, hk, hplain⟩ := h.2 child hchild
    rw [hk]
    exact hplain
  | seq kind items =>
    obtain ⟨j, -, hj⟩ := Document.exists_index_of_mem_indexed hchild
    rw [hj]
    trivial

variable {d : Data α}

lemma isPlainSlot_of_get? (hd : d.Everywhere IsPlain) {p : List (Slot Text)} {v : Data α}
    (h : d.get? p = some v) : ∀ s ∈ p, IsPlainSlot s := by
  induction p generalizing d with
  | nil => exact fun s hs => absurd hs List.not_mem_nil
  | cons s p ih =>
    obtain ⟨child, hchild, hget⟩ := Option.bind_eq_some_iff.mp h
    have hmem := Assoc.mem_of_get? hchild
    obtain ⟨hplain, hbelow⟩ := hd
    intro s' hs'
    obtain rfl | hs' := List.mem_cons.mp hs'
    · exact hplain.isPlainSlot hmem
    · exact ih (hbelow _ hmem) hget s' hs'

end plain

section getAllPaths
variable {py}

lemma getItemPaths_eq (currentPath : Text) (allowBlank : Bool) (i : ℕ) (items : List (Data α)) :
    getItemPaths py currentPath allowBlank i items =
      getEntryPaths py currentPath allowBlank (Document.indexed i items) := by
  induction items generalizing i with
  | nil => rw [getItemPaths, Document.indexed, getEntryPaths]
  | cons d items ih => rw [getItemPaths, Document.indexed, getEntryPaths, ih, element]

lemma getAllPaths_eq {currentPath : Text} (hne : currentPath ≠ []) (allowBlank : Bool) (d : Data α) :
    getAllPaths py currentPath allowBlank d =
      if d.isTip allowBlank then [currentPath] else getEntryPaths py currentPath allowBlank d.children := by
  have hcurrent : currentPath.isEmpty = false := List.isEmpty_eq_false_iff.mpr hne
  cases d with
  | leaf a => rw [getAllPaths, Document.isTip, if_pos rfl]
  | dict entries => rw [getAllPaths, Document.isTip, Document.children, hcurrent, Bool.not_false, Bool.and_true]
  | seq kind items =>
    rw [getAllPaths, Document.isTip, Document.children, getItemPaths_eq, hcurrent, Bool.not_false,
      Bool.and_true]

lemma getEntryPaths_eq {p : List (Slot Text)} (hp : ∀ s ∈ p, IsPlainSlot s) (allowBlank : Bool)
    {entries : List (Slot Text × Data α)}
    (h : ∀ child ∈ entries, getAllPaths py (pathText py (p ++ [child.1])) allowBlank child.2 =
      (Document.tips allowBlank child.2).map fun tip => pathText py (p ++ child.1 :: tip.1)) :
    getEntryPaths py (pathText py p) allowBlank entries =
      (Document.entryTips allowBlank entries).map fun tip => pathText py (p ++ tip.1) := by
  induction entries with
  | nil => rw [getEntryPaths, Document.entryTips, List.map_nil]
  | cons entry entries ih =>
    obtain ⟨s, d⟩ := entry
    rw [getEntryPaths, Document.entryTips, dotJoin_pathText py hp, h (s, d) List.mem_cons_self,
      ih fun child hchild => h child (List.mem_cons_of_mem _ hchild), List.map_append, List.map_map]
    rfl

/-- The paths below a path are those of the tips. -/
theorem getAllPaths_pathText {d : Data α} (hd : d.Everywhere IsPlain) {p : List (Slot Text)}
    (hp : ∀ s ∈ p, IsPlainSlot s) (hne : p ≠ []) (allowBlank : Bool) :
    getAllPaths py (pathText py p) allowBlank d =
      (Document.tips allowBlank d).map fun tip => pathText py (p ++ tip.1) := by
  induction d using Document.of_children generalizing p with
  | h d ih =>
    obtain ⟨hplain, hbelow⟩ := hd
    rw [getAllPaths_eq (fun h => hne ((pathText_eq_nil py hp).mp h)), Document.tips_eq]
    split_ifs with htip
    · rw [List.map_singleton, List.append_nil]
    · apply getEntryPaths_eq hp
      intro child hchild
      have hslots : ∀ s ∈ p ++ [child.1], IsPlainSlot s := by
        intro s hs
        obtain hs | hs := List.mem_append.mp hs
        · exact hp s hs
        · rw [List.mem_singleton.mp hs]
          exact hplain.isPlainSlot hchild
      have hsnoc : p ++ [child.1] ≠ [] := List.append_ne_nil_of_right_ne_nil p (List.cons_ne_nil _ _)
      rw [ih child hchild (hbelow child hchild) hslots hsnoc]
      congr 1
      funext tip
      rw [List.append_assoc, List.singleton_append]

/-- All paths of a dict. -/
theorem getAllPaths_dict {entries : List (Slot Text × Data α)}
    (h : Document.Everywhere IsPlain (.dict entries : Data α)) (allowBlank : Bool) :
    getAllPaths py [] allowBlank (.dict entries) =
      (Document.entryTips allowBlank entries).map fun tip => pathText py tip.1 := by
  obtain ⟨hplain, hbelow⟩ := h
  have hroot : getAllPaths py [] allowBlank (.dict entries : Data α) =
      getEntryPaths py (pathText py []) allowBlank entries := by
    rw [getAllPaths, List.isEmpty_nil, Bool.not_true, Bool.and_false, Bool.false_and,
      if_neg Bool.false_ne_true, pathText]
  rw [hroot]
  apply getEntryPaths_eq (fun s hs => absurd hs List.not_mem_nil)
  intro child hchild
  have hslots : ∀ s ∈ [child.1], IsPlainSlot s := by
    intro s hs
    rw [List.mem_singleton.mp hs]
    exact hplain.isPlainSlot hchild
  exact getAllPaths_pathText (hbelow child hchild) hslots (List.cons_ne_nil _ _) allowBlank

end getAllPaths

section pathGet
variable {py}

lemma pathGet_last {d : Data α} {path : Text} {slot : Slot Text}
    (h : pathGetNextPathElement py path = .ok (some (slot, none))) : pathGet py d path = getSlot py d slot := by
  rw [pathGet]
  split
  · next heq => cases h.symm.trans heq
  · next heq => cases h.symm.trans heq
  · next heq =>
    cases h.symm.trans heq
    rfl
  · next heq => cases h.symm.trans heq

lemma pathGet_more {d v : Data α} {path pathRest : Text} {slot : Slot Text}
    (h : pathGetNextPathElement py path = .ok (some (slot, some pathRest))) (hv : getSlot py d slot = .ok v) :
    pathGet py d path = pathGet py v pathRest := by
  rw [pathGet]
  split
  · next heq => cases h.symm.trans heq
  · next heq => cases h.symm.trans heq
  · next heq => cases h.symm.trans heq
  · next heq =>
    cases h.symm.trans heq
    rw [hv]

lemma getSlot_of_get? {d v : Data α} {s : Slot Text} (h : Assoc.get? s d.children = some v) :
    getSlot py d s = .ok v := by
  cases d with
  | leaf a => cases h
  | dict entries =>
    rw [Document.children] at h
    rw [getSlot, h]
  | seq kind items =>
    rw [Document.children] at h
    cases s with
    | name t =>
      obtain ⟨j, -, hj⟩ := Document.exists_index_of_mem_indexed (Assoc.mem_of_get? h)
      cases hj
    | index i =>
      have hitem : Assoc.get? (.index i : Slot Text) (Document.indexed 0 items) = items[i]? := by
        rw [← Document.get?_index_indexed 0 i items, Nat.zero_add]
      rw [getSlot, ← hitem, h]

/-- `path_get` finds what is at the slots of the path. -/
theorem pathGet_pathText {d v : Data α} {p : List (Slot Text)} (hp : ∀ s ∈ p, IsPlainSlot s) (hne : p ≠ [])
    (h : d.get? p = some v) : pathGet py d (pathText py p) = .ok v := by
  induction p generalizing d with
  | nil => exact absurd rfl hne
  | cons s p ih =>
    obtain ⟨child, hchild, hget⟩ := Option.bind_eq_some_iff.mp h
    have hslot : getSlot py d s = .ok child := getSlot_of_get? hchild
    have hnext := next_pathText py hp
    by_cases hp0 : p = []
    · rw [if_pos hp0] at hnext
      rw [hp0] at hget
      cases hget
      rw [pathGet_last hnext, hslot]
    · rw [if_neg hp0] at hnext
      rw [pathGet_more hnext hslot]
      exact ih (fun s hs => hp s (List.mem_cons_of_mem _ hs)) hp0 hget

end pathGet

section pathPut
variable {py}

lemma pathPut_last {out value : Data α} {path : Text} {slot : Slot Text}
    (h : pathGetNextPathElement py path = .ok (some (slot, none))) :
    pathPut py out path value = setSlot out slot path value := by
  rw [pathPut]
  split
  · next heq => cases h.symm.trans heq
  · next heq => cases h.symm.trans heq
  · next heq =>
    cases h.symm.trans heq
    rfl
  · next heq => cases h.symm.trans heq

lemma pathPut_more {out value : Data α} {path pathRest : Text} {slot : Slot Text}
    {next : Option (Slot Text × Option Text)}
    (h : pathGetNextPathElement py path = .ok (some (slot, some pathRest)))
    (hnext : pathGetNextPathElement py pathRest = .ok next) :
    pathPut py out path value =
      changeSlot py out slot path (prototypeFor next) fun v => pathPut py v pathRest value := by
  rw [pathPut]
  split
  · next heq => cases h.symm.trans heq
  · next heq => cases h.symm.trans heq
  · next heq => cases h.symm.trans heq
  · next heq =>
    cases h.symm.trans heq
    rw [hnext]

lemma setSlot_of_putSlot {out out' value : Data α} {s : Slot Text} (path : Text)
    (h : Document.putSlot .list s (.dict []) (fun _ => some value) out = some out') :
    setSlot out s path value = .ok out' := by
  cases out with
  | leaf a => cases h
  | dict entries =>
    cases h
    rw [setSlot]
  | seq kind items =>
    cases s with
    | name t => cases h
    | index i =>
      rw [Document.putSlot] at h
      split_ifs at h with hkind
      cases h
      rw [hkind, setSlot, vivifyArray]

lemma changeSlot_of_putSlot {out out' prototype : Data α} {s : Slot Text} (path : Text)
    {f : Data α → Option (Data α)} {change : Data α → Except PathError (Data α)}
    (hf : ∀ {v v'}, f v = some v' → change v = .ok v')
    (h : Document.putSlot .list s prototype f out = some out') :
    changeSlot py out s path prototype change = .ok out' := by
  cases out with
  | leaf a => cases h
  | dict entries =>
    obtain ⟨v, hv, rfl⟩ := Option.map_eq_some_iff.mp h
    rw [changeSlot, hf hv]
    rfl
  | seq kind items =>
    cases s with
    | name t => cases h
    | index i =>
      rw [Document.putSlot] at h
      split_ifs at h with hkind
      obtain ⟨v, hv, rfl⟩ := Option.map_eq_some_iff.mp h
      rw [hkind, changeSlot, hf hv, vivifyArray]
      rfl

lemma prototypeFor_eq (s : Slot Text) (p : List (Slot Text)) (remainder : Option Text) :
    (prototypeFor (some (s, remainder)) : Data α) = Document.blankFor .list (s :: p) := by
  cases s <;> rfl

/-- `path_put` puts the value at the slots of the path. -/
theorem pathPut_pathText {out out' value : Data α} {p : List (Slot Text)} (hp : ∀ s ∈ p, IsPlainSlot s)
    (hne : p ≠ []) (h : Document.put? .list out p value = some out') :
    pathPut py out (pathText py p) value = .ok out' := by
  induction p generalizing out out' with
  | nil => exact absurd rfl hne
  | cons s p ih =>
    have hnext := next_pathText py hp
    have hp' : ∀ s ∈ p, IsPlainSlot s := fun s hs => hp s (List.mem_cons_of_mem _ hs)
    rw [Document.put?] at h
    cases p with
    | nil =>
      rw [if_pos rfl] at hnext
      rw [pathPut_last hnext]
      exact setSlot_of_putSlot _ h
    | cons s' p =>
      rw [if_neg (List.cons_ne_nil s' p)] at hnext
      rw [pathPut_more hnext (next_pathText py hp'), prototypeFor_eq s' p]
      exact changeSlot_of_putSlot _ (ih hp' (List.cons_ne_nil s' p)) h

/-- Putting what a document has at the paths is putting the tips. -/
lemma putPaths_pathText {d out out' : Data α} {tips : List (List (Slot Text) × Data α)}
    (htips : ∀ tip ∈ tips, tip.1 ≠ [] ∧ (∀ s ∈ tip.1, IsPlainSlot s) ∧ d.get? tip.1 = some tip.2)
    (h : Document.putAll .list out tips = some out') :
    putPaths py d out (tips.map fun tip => pathText py tip.1) = .ok out' := by
  induction tips generalizing out with
  | nil =>
    cases h
    rfl
  | cons tip tips ih =>
    obtain ⟨out₁, hput, hrest⟩ := Option.bind_eq_some_iff.mp h
    obtain ⟨hne, hplain, hget⟩ := htips tip List.mem_cons_self
    have hfirst : (do pathPut py out (pathText py tip.1) (← pathGet py d (pathText py tip.1))) =
        (.ok out₁ : Except PathError (Data α)) := by
      rw [pathGet_pathText hplain hne hget]
      exact pathPut_pathText hplain hne hput
    rw [putPaths, List.map_cons, List.foldlM_cons, hfirst]
    exact ih (fun tip htip => htips tip (List.mem_cons_of_mem _ htip)) hrest

end pathPut

section roundTrip
variable {entries : List (Slot Text × Data α)}

/-- The places of a dict's leaves with the leaves. -/
lemma mem_entryTips_dict (h : Document.Everywhere IsPlain (.dict entries : Data α)) {allowBlank : Bool}
    {place : List (Slot Text)} {leaf : Data α} :
    (place, leaf) ∈ Document.entryTips allowBlank entries ↔ place ≠ [] ∧
      (Document.dict entries).get? place = some leaf ∧ leaf.isTip allowBlank = true := by
  obtain ⟨hnamed, hbelow⟩ := h.mono IsPlain.named
  exact Document.mem_entryTips_children hnamed fun child hchild =>
    Document.mem_tips (hbelow child hchild)

lemma nodup_entryTips_dict (h : Document.Everywhere IsPlain (.dict entries : Data α)) (allowBlank : Bool) :
    ((Document.entryTips allowBlank entries).map Prod.fst).Nodup := by
  obtain ⟨hnamed, hbelow⟩ := h.mono IsPlain.named
  exact Document.nodup_entryTips hnamed fun child hchild => Document.nodup_tips (hbelow child hchild)

/-- The paths of a dict of dicts and lists are different texts, each of which stands for the place of one
of its leaves, all leaves are covered, `path_get` finds the leaf at each path, and putting the leaves at
their paths, in order, into an empty dict rebuilds the dict. If blanks are allowed, then empty dicts and
lists are leaves. -/
theorem getAllPaths_roundTrip (h : Document.Everywhere IsPlain (.dict entries : Data α)) :
    (∀ allowBlank, (getAllPaths py [] allowBlank (.dict entries : Data α)).Nodup ∧
      ∃ places : List (List (Slot Text)), places.Nodup ∧
        getAllPaths py [] allowBlank (.dict entries) = places.map (pathText py) ∧
        (∀ place, place ∈ places ↔ place ≠ [] ∧
          ∃ leaf, (Document.dict entries).get? place = some leaf ∧ leaf.isTip allowBlank = true) ∧
        ∀ place ∈ places, ∃ leaf, (Document.dict entries).get? place = some leaf ∧
          pathGet py (.dict entries) (pathText py place) = .ok leaf) ∧
    putPaths py (.dict entries) (.dict []) (getAllPaths py [] true (.dict entries : Data α)) =
      .ok (.dict entries) := by
  constructor
  · intro allowBlank
    have hplaces (place : List (Slot Text)) :
        place ∈ (Document.entryTips allowBlank entries).map Prod.fst ↔ place ≠ [] ∧
          ∃ leaf, (Document.dict entries).get? place = some leaf ∧ leaf.isTip allowBlank = true := by
      constructor
      · intro hplace
        obtain ⟨⟨_, leaf⟩, htip, rfl⟩ := List.mem_map.mp hplace
        obtain ⟨hne, hleaf⟩ := (mem_entryTips_dict h).mp htip
        exact ⟨hne, leaf, hleaf⟩
      · rintro ⟨hne, leaf, hleaf⟩
        exact List.mem_map.mpr ⟨(place, leaf), (mem_entryTips_dict h).mpr ⟨hne, hleaf⟩, rfl⟩
    have hplain : ∀ place ∈ (Document.entryTips allowBlank entries).map Prod.fst,
        ∀ s ∈ place, IsPlainSlot s := by
      intro place hplace
      obtain ⟨-, leaf, hleaf, -⟩ := (hplaces place).mp hplace
      exact isPlainSlot_of_get? h hleaf
    have hpaths : getAllPaths py [] allowBlank (.dict entries) =
        ((Document.entryTips allowBlank entries).map Prod.fst).map (pathText py) := by
      rw [getAllPaths_dict h, List.map_map]
      rfl
    refine ⟨?_, _, nodup_entryTips_dict h allowBlank, hpaths, hplaces, ?_⟩
    · rw [hpaths]
      apply List.Nodup.map_on _ (nodup_entryTips_dict h allowBlank)
      intro p hp q hq heq
      exact pathText_inj py (hplain p hp) (hplain q hq) heq
    · intro place hplace
      obtain ⟨hne, leaf, hleaf, -⟩ := (hplaces place).mp hplace
      exact ⟨leaf, hleaf, pathGet_pathText (hplain place hplace) hne hleaf⟩
  · rw [getAllPaths_dict h]
    apply putPaths_pathText _ (Document.putAll_tips_dict (h.mono IsPlain.regular))
    intro tip htip
    obtain ⟨hne, hleaf, -⟩ := (mem_entryTips_dict h).mp htip
    exact ⟨hne, isPlainSlot_of_get? h hleaf, hleaf⟩

/-- Digits and leaves that cannot be subscripted. -/
def asciiBuiltins : Builtins ℕ where
  isDigit c := 48 ≤ c.val && c.val ≤ 57
  digit? c := if 48 ≤ c.val ∧ c.val ≤ 57 then some (c.val - 48) else none
  isDigit_ascii := isDigit_ascii
  digit?_ascii := digit?_ascii
  getItem _ _ := .error (.builtin "TypeError" "'int' object is not subscriptable")

/-- A key with a dot and a key of digits, and a list of a blank dict, a leaf and a list. -/
def mixedDict : List (Slot Text × Data ℕ) :=
  [(.name (text "a.b"), .dict [(.name (text "0"), .leaf 7)]),
    (.name (text "foo"), .seq .list [.dict [], .leaf 1, .seq .list [.leaf 5]])]

lemma isPlain_mixedDict : Document.Everywhere IsPlain (.dict mixedDict : Data ℕ) := by
  have hleaf (n : ℕ) : Document.Everywhere IsPlain (.leaf n : Data ℕ) := .intro trivial nofun
  have hdict (s : String) (d : Data ℕ) (hs : text s ≠ [] ∧ openBrace ∉ text s ∧ closeBrace ∉ text s) :
      ∃ k, (Slot.name (text s), d).1 = .name k ∧ k ≠ [] ∧ openBrace ∉ k ∧ closeBrace ∉ k := ⟨_, rfl, hs⟩
  have hnested : Document.Everywhere IsPlain (.dict [(.name (text "0"), .leaf 7)] : Data ℕ) :=
    .intro ⟨by decide, List.forall_mem_singleton.mpr (hdict _ _ (by decide))⟩
      (List.forall_mem_singleton.mpr (hleaf 7))
  have hblank : Document.Everywhere IsPlain (.dict [] : Data ℕ) := .intro ⟨List.nodup_nil, nofun⟩ nofun
  have hlist : Document.Everywhere IsPlain (.seq .list [.leaf 5] : Data ℕ) :=
    .intro rfl (List.forall_mem_singleton.mpr (hleaf 5))
  have hitems : Document.Everywhere IsPlain (.seq .list [.dict [], .leaf 1, .seq .list [.leaf 5]] : Data ℕ) :=
    .intro rfl (List.forall_mem_cons.mpr ⟨hblank, List.forall_mem_cons.mpr ⟨hleaf 1,
      List.forall_mem_singleton.mpr hlist⟩⟩)
  exact .intro ⟨by decide, List.forall_mem_cons.mpr ⟨hdict _ _ (by decide),
    List.forall_mem_singleton.mpr (hdict _ _ (by decide))⟩⟩
    (List.forall_mem_cons.mpr ⟨hnested, List.forall_mem_singleton.mpr hitems⟩)

theorem getAllPaths_roundTrip_mixedDict :
    putPaths asciiBuiltins (.dict mixedDict) (.dict [])
      (getAllPaths asciiBuiltins [] true (.dict mixedDict : Data ℕ)) = .ok (.dict mixedDict) :=
  (getAllPaths_roundTrip asciiBuiltins isPlain_mixedDict).2

end roundTrip
end Paths
end PySOA
