import Mathlib.Data.List.Basic

/-! Lists that are split by a predicate and put together again: the elements taken out are inserted at
the places where they were. Both parts, and the whole, may be cut behind their first bad element. -/
namespace Splits
variable {α β : Type*}

/-- Inserts an element before the one at the given place, or at the end if there is none. -/
def insertAt (i : ℕ) (a : α) (l : List α) : List α := l.take i ++ a :: l.drop i

/-- Inserts elements at their places, one after the other. -/
def insertAll (l : List α) (placed : List (ℕ × α)) : List α :=
  placed.foldl (fun l entry => insertAt entry.1 entry.2 l) l

/-- The elements with the property and their places, which are counted from `i`. -/
def placed (p : α → Bool) (i : ℕ) : List α → List (ℕ × α)
  | [] => []
  | a :: l => if p a then (i, a) :: placed p (i+1) l else placed p (i+1) l

/-- The list up to and with its first bad element. -/
def cut (bad : α → Bool) : List α → List α
  | [] => []
  | a :: l => if bad a then [a] else a :: cut bad l

section insertAll
variable {a : α} {l : List α}

lemma insertAll_cons (entry : ℕ × α) (l : List α) (entries : List (ℕ × α)) :
    insertAll l (entry :: entries) = insertAll (insertAt entry.1 entry.2 l) entries := rfl

/-- Elements that are inserted behind the first one leave it where it is. -/
lemma insertAll_succ (a : α) (l : List α) (entries : List (ℕ × α)) :
    insertAll (a :: l) (entries.map (Prod.map (· + 1) id)) = a :: insertAll l entries := by
  induction entries generalizing l with
  | nil => rfl
  | cons entry entries ih =>
    have hfirst : insertAt (entry.1 + 1) entry.2 (a :: l) = a :: insertAt entry.1 entry.2 l := rfl
    rw [List.map_cons, insertAll_cons, insertAll_cons, Prod.map_fst, Prod.map_snd, id, hfirst, ih]

lemma insertAll_zero (a : α) (l : List α) (entries : List (ℕ × α)) :
    insertAll l ((0, a) :: entries.map (Prod.map (· + 1) id)) = a :: insertAll l entries := by
  rw [insertAll_cons]
  exact insertAll_succ a l entries

lemma placed_succ (p : α → Bool) (i : ℕ) (l : List α) :
    placed p (i+1) l = (placed p i l).map (Prod.map (· + 1) id) := by
  induction l generalizing i with
  | nil => rfl
  | cons a l ih =>
    unfold placed
    split_ifs
    · rw [ih, List.map_cons]
      rfl
    · exact ih (i+1)

lemma map_snd_placed (p : α → Bool) (i : ℕ) (l : List α) : (placed p i l).map Prod.snd = l.filter p := by
  induction l generalizing i with
  | nil => rfl
  | cons a l ih =>
    rw [placed]
    by_cases hp : p a = true
    · rw [if_pos hp, List.filter_cons_of_pos hp, List.map_cons, ih]
    · rw [if_neg hp, List.filter_cons_of_neg hp, ih]

lemma map_insertAll (f : α → β) (l : List α) (entries : List (ℕ × α)) :
    (insertAll l entries).map f = insertAll (l.map f) (entries.map (Prod.map id f)) := by
  induction entries generalizing l with
  | nil => rfl
  | cons entry entries ih =>
    have hfirst : (insertAt entry.1 entry.2 l).map f = insertAt entry.1 (f entry.2) (l.map f) := by
      rw [insertAt, insertAt, List.map_append, List.map_cons, List.map_take, List.map_drop]
    rw [insertAll_cons, ih, hfirst]
    rfl

/-- The elements taken out come back to where they were. -/
theorem insertAll_placed (p : α → Bool) (l : List α) :
    insertAll (l.filter fun a => !p a) (placed p 0 l) = l := by
  induction l with
  | nil => rfl
  | cons a l ih =>
    rw [placed, placed_succ]
    by_cases hp : p a = true
    · rw [if_pos hp, List.filter_cons_of_neg (by simp [hp]), insertAll_zero, ih]
    · rw [if_neg hp, List.filter_cons_of_pos (by simp [hp]), insertAll_succ, ih]

end insertAll

section cut
variable {bad : α → Bool} {a : α} {l : List α}

lemma cut_cons_of_bad (h : bad a = true) (l : List α) : cut bad (a :: l) = [a] := if_pos h

lemma cut_cons_of_not (h : ¬bad a = true) (l : List α) : cut bad (a :: l) = a :: cut bad l := if_neg h

lemma map_cut (bad : α → Bool) (f : β → α) (l : List β) : (cut (fun b => bad (f b)) l).map f = cut bad (l.map f) := by
  induction l with
  | nil => rfl
  | cons b l ih =>
    rw [cut, List.map_cons, cut]
    split_ifs
    · rfl
    · rw [List.map_cons, ih]

lemma cut_eq_take (bad : α → Bool) (l : List α) :
    cut bad l = match l.findIdx? bad with
      | some i => l.take (i+1)
      | none => l := by
  induction l with
  | nil => rfl
  | cons a l ih =>
    rw [List.findIdx?_cons]
    by_cases ha : bad a = true
    · rw [cut_cons_of_bad ha, if_pos ha]
      rfl
    · rw [cut_cons_of_not ha, if_neg ha, ih]
      cases l.findIdx? bad <;> rfl

/-- Nothing is cut off if no element is bad but the last. -/
theorem cut_eq_self_iff : cut bad l = l ↔ ∀ a ∈ l.dropLast, ¬bad a = true := by
  induction l with
  | nil => exact iff_of_true rfl fun a ha => absurd ha List.not_mem_nil
  | cons a l ih =>
    cases l with
    | nil =>
      refine iff_of_true ?_ fun a ha => absurd ha List.not_mem_nil
      by_cases ha : bad a = true
      · exact cut_cons_of_bad ha []
      · exact cut_cons_of_not ha []
    | cons b l =>
      rw [List.dropLast_cons_cons, List.forall_mem_cons]
      by_cases ha : bad a = true
      · rw [cut_cons_of_bad ha]
        exact iff_of_false (fun h => by cases h) fun h => h.1 ha
      · rw [cut_cons_of_not ha, List.cons.injEq, ih]
        exact and_congr_left' (iff_of_true rfl ha)

/-- If the part taken out is cut, and the other part is or is not, then the whole is cut where it should
be once the parts are put together. -/
theorem cut_insertAll (p : α → Bool) {rest : List α}
    (h : rest = (l.filter fun a => !p a) ∨ rest = cut bad (l.filter fun a => !p a)) :
    cut bad (insertAll rest (cut (fun entry => bad entry.2) (placed p 0 l))) = cut bad l := by
  have hcut (entries : List (ℕ × α)) :
      cut (fun entry => bad entry.2) (entries.map (Prod.map (· + 1) id)) =
        (cut (fun entry => bad entry.2) entries).map (Prod.map (· + 1) id) :=
    (map_cut (fun entry : ℕ × α => bad entry.2) (Prod.map (· + 1) id) entries).symm
  induction l generalizing rest with
  | nil =>
    have hrest : rest = [] := h.elim id id
    rw [hrest]
    rfl
  | cons a l ih =>
    rw [placed, placed_succ]
    by_cases hp : p a = true
    · rw [List.filter_cons_of_neg (by simp [hp])] at h
      rw [if_pos hp]
      rw [cut]
      dsimp only
      by_cases ha : bad a = true
      · rw [if_pos ha, cut_cons_of_bad ha, insertAll_cons]
        exact cut_cons_of_bad ha rest
      · rw [if_neg ha, cut_cons_of_not ha, hcut, insertAll_zero, cut_cons_of_not ha, ih h]
    · rw [List.filter_cons_of_pos (by simp [hp])] at h
      rw [if_neg hp, hcut]
      by_cases ha : bad a = true
      · have hrest : ∃ rest', rest = a :: rest' := by
          obtain rfl | rfl := h
          · exact ⟨_, rfl⟩
          · exact ⟨[], cut_cons_of_bad ha _⟩
        obtain ⟨rest', rfl⟩ := hrest
        rw [insertAll_succ, cut_cons_of_bad ha, cut_cons_of_bad ha]
      · have hrest : ∃ rest', rest = a :: rest' ∧
            (rest' = (l.filter fun a => !p a) ∨ rest' = cut bad (l.filter fun a => !p a)) := by
          obtain rfl | rfl := h
          · exact ⟨_, rfl, .inl rfl⟩
          · exact ⟨_, cut_cons_of_not ha _, .inr rfl⟩
        obtain ⟨rest', rfl, hrest'⟩ := hrest
        rw [insertAll_succ, cut_cons_of_not ha, cut_cons_of_not ha, ih hrest']

end cut
end Splits
