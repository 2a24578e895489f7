import Mathlib.Data.List.Induction

/-! Association lists whose entries are changed in place: `upsert` changes the first entry of a
key or adds one at the end. -/
namespace Assoc
variable {κ β : Type*} [DecidableEq κ]

def get? (key : κ) (l : List (κ × β)) : Option β := (l.find? (fun entry => entry.1 = key)).map Prod.snd

def upsert (key : κ) (f : Option β → β) : List (κ × β) → List (κ × β)
  | [] => [(key, f none)]
  | (k, b) :: l => if k = key then (k, f (some b)) :: l else (k, b) :: upsert key f l

variable {key : κ} {f : Option β → β} {l : List (κ × β)}

lemma get?_cons (k : κ) (b : β) (l : List (κ × β)) :
    get? key ((k, b) :: l) = if k = key then some b else get? key l := by
  unfold get?
  by_cases h : k = key <;> simp [h]

lemma mem_of_get? {b : β} (h : get? key l = some b) : (key, b) ∈ l := by
  obtain ⟨entry, hfind, rfl⟩ := Option.map_eq_some_iff.mp h
  have hkey : entry.1 = key := by simpa using List.find?_some hfind
  rw [← hkey]
  exact List.mem_of_find?_eq_some hfind

lemma get?_of_mem {b : β} (hnodup : (l.map Prod.fst).Nodup) (h : (key, b) ∈ l) : get? key l = some b := by
  induction l with
  | nil => cases h
  | cons head l ih =>
    rw [List.map_cons, List.nodup_cons] at hnodup
    rw [get?_cons]
    obtain rfl | h := List.mem_cons.mp h
    · rw [if_pos rfl]
    · have hne : head.1 ≠ key := by
        intro heq
        apply hnodup.1
        rw [heq]
        exact List.mem_map_of_mem (f := Prod.fst) h
      rw [if_neg hne]
      exact ih hnodup.2 h

lemma get?_of_notMem (h : key ∉ l.map Prod.fst) : get? key l = none := by
  unfold get?
  rw [Option.map_eq_none_iff, List.find?_eq_none]
  intro entry hentry heq
  apply h
  rw [← of_decide_eq_true heq]
  exact List.mem_map_of_mem (f := Prod.fst) hentry

lemma mem_keys_iff : key ∈ l.map Prod.fst ↔ ∃ b, get? key l = some b := by
  constructor
  · intro h
    by_contra hnone
    push Not at hnone
    obtain ⟨entry, hentry, rfl⟩ := List.mem_map.mp h
    have hfind := Option.map_eq_none_iff.mp (Option.eq_none_iff_forall_ne_some.mpr hnone)
    exact absurd (List.find?_eq_none.mp hfind entry hentry) (by simp)
  · rintro ⟨b, hb⟩
    exact List.mem_map_of_mem (f := Prod.fst) (mem_of_get? hb)

/-- An entry that is there afterwards was there before or is the changed one. -/
lemma mem_upsert {entry : κ × β} (h : entry ∈ upsert key f l) :
    entry ∈ l ∨ entry = (key, f none) ∨ ∃ b, (key, b) ∈ l ∧ entry = (key, f (some b)) := by
  induction l with
  | nil => exact .inr (.inl (List.mem_singleton.mp h))
  | cons head l ih =>
    obtain ⟨k, b⟩ := head
    unfold upsert at h
    split_ifs at h with hk
    · subst hk
      rcases List.mem_cons.mp h with rfl | h
      · exact .inr (.inr ⟨b, List.mem_cons_self, rfl⟩)
      · exact .inl (List.mem_cons_of_mem _ h)
    · rcases List.mem_cons.mp h with rfl | h
      · exact .inl List.mem_cons_self
      · rcases ih h with h | h | ⟨b', hb', rfl⟩
        · exact .inl (List.mem_cons_of_mem _ h)
        · exact .inr (.inl h)
        · exact .inr (.inr ⟨b', List.mem_cons_of_mem _ hb', rfl⟩)

/-- An entry that was there before is there afterwards, or has been changed. -/
lemma mem_upsert_of_mem (key : κ) (f : Option β → β) {entry : κ × β} (h : entry ∈ l) :
    entry ∈ upsert key f l ∨ entry.1 = key ∧ (key, f (some entry.2)) ∈ upsert key f l := by
  induction l with
  | nil => cases h
  | cons head l ih =>
    obtain ⟨k, b⟩ := head
    unfold upsert
    split_ifs with hk
    · subst hk
      rcases List.mem_cons.mp h with rfl | h
      · exact .inr ⟨rfl, List.mem_cons_self⟩
      · exact .inl (List.mem_cons_of_mem _ h)
    · rcases List.mem_cons.mp h with rfl | h
      · exact .inl List.mem_cons_self
      · rcases ih h with h | ⟨hkey, h⟩
        · exact .inl (List.mem_cons_of_mem _ h)
        · exact .inr ⟨hkey, List.mem_cons_of_mem _ h⟩

/-- The changed entry. -/
lemma exists_mem_upsert (key : κ) (f : Option β → β) (l : List (κ × β)) :
    (key, f none) ∈ upsert key f l ∨ ∃ b, (key, b) ∈ l ∧ (key, f (some b)) ∈ upsert key f l := by
  induction l with
  | nil => exact .inl List.mem_cons_self
  | cons head l ih =>
    obtain ⟨k, b⟩ := head
    unfold upsert
    split_ifs with hk
    · subst hk
      exact .inr ⟨b, List.mem_cons_self, List.mem_cons_self⟩
    · rcases ih with h | ⟨b', hb', h⟩
      · exact .inl (List.mem_cons_of_mem _ h)
      · exact .inr ⟨b', List.mem_cons_of_mem _ hb', List.mem_cons_of_mem _ h⟩

lemma get?_upsert_self (key : κ) (f : Option β → β) (l : List (κ × β)) :
    get? key (upsert key f l) = some (f (get? key l)) := by
  induction l with
  | nil => simp [upsert, get?]
  | cons head l ih =>
    obtain ⟨k, b⟩ := head
    unfold upsert
    split_ifs with hk
    · rw [get?_cons, get?_cons, if_pos hk, if_pos hk]
    · rw [get?_cons, get?_cons, if_neg hk, if_neg hk, ih]

lemma upsert_of_get? {b : β} (h : get? key l = some b) : upsert key (fun _ => b) l = l := by
  induction l with
  | nil => cases h
  | cons head l ih =>
    obtain ⟨k, b'⟩ := head
    rw [get?_cons] at h
    rw [upsert]
    split_ifs at h ⊢
    · rw [Option.some.inj h]
    · rw [ih h]

lemma get?_upsert_of_ne {key' : κ} (h : key' ≠ key) (f : Option β → β) (l : List (κ × β)) :
    get? key' (upsert key f l) = get? key' l := by
  induction l with
  | nil => simp [upsert, get?, h.symm]
  | cons head l ih =>
    obtain ⟨k, b⟩ := head
    unfold upsert
    split_ifs with hk
    · subst hk
      rw [get?_cons, get?_cons, if_neg h.symm, if_neg h.symm]
    · rw [get?_cons, get?_cons, ih]

lemma upsert_of_notMem (h : key ∉ l.map Prod.fst) : upsert key f l = l ++ [(key, f none)] := by
  induction l with
  | nil => rfl
  | cons head l ih =>
    rw [List.map_cons, List.mem_cons, not_or] at h
    rw [upsert, if_neg (Ne.symm h.1), ih h.2, List.cons_append]

lemma keys_upsert_of_mem (h : key ∈ l.map Prod.fst) : (upsert key f l).map Prod.fst = l.map Prod.fst := by
  induction l with
  | nil => cases h
  | cons head l ih =>
    unfold upsert
    split_ifs with hk
    · rfl
    · rw [List.map_cons, List.map_cons, ih ((List.mem_cons.mp h).resolve_left (Ne.symm hk))]

lemma get?_append_of_notMem (h : key ∉ l.map Prod.fst) (l' : List (κ × β)) :
    get? key (l ++ l') = get? key l' := by
  induction l with
  | nil => rfl
  | cons head l ih =>
    rw [List.map_cons, List.mem_cons, not_or] at h
    rw [List.cons_append, get?_cons, if_neg (Ne.symm h.1), ih h.2]

lemma upsert_append_of_notMem (h : key ∉ l.map Prod.fst) (l' : List (κ × β)) :
    upsert key f (l ++ l') = l ++ upsert key f l' := by
  induction l with
  | nil => rfl
  | cons head l ih =>
    rw [List.map_cons, List.mem_cons, not_or] at h
    rw [List.cons_append, upsert, if_neg (Ne.symm h.1), ih h.2, List.cons_append]

/-- The entries of a list, of which a later one takes the place of an earlier one for its key. -/
def ofPairs (pairs : List (κ × β)) : List (κ × β) :=
  pairs.foldl (fun l pair => upsert pair.1 (fun _ => pair.2) l) []

lemma ofPairs_append_singleton (pairs : List (κ × β)) (pair : κ × β) :
    ofPairs (pairs ++ [pair]) = upsert pair.1 (fun _ => pair.2) (ofPairs pairs) := by
  simp [ofPairs]

theorem ofPairs_of_nodup {pairs : List (κ × β)} (h : (pairs.map Prod.fst).Nodup) :
    ofPairs pairs = pairs := by
  induction pairs using List.reverseRecOn with
  | nil => rfl
  | append_singleton pairs pair ih =>
    rw [List.map_append, List.map_singleton, List.nodup_append] at h
    have hnew : pair.1 ∉ pairs.map Prod.fst := fun hmem =>
      h.2.2 _ hmem _ (List.mem_singleton_self _) rfl
    rw [ofPairs_append_singleton, ih h.1, upsert_of_notMem hnew]

lemma nodup_upsert (h : (l.map Prod.fst).Nodup) : ((upsert key f l).map Prod.fst).Nodup := by
  by_cases hkey : key ∈ l.map Prod.fst
  · rwa [keys_upsert_of_mem hkey]
  · rw [upsert_of_notMem hkey, List.map_append, List.map_singleton]
    apply List.nodup_append.mpr ⟨h, by simp, ?_⟩
    intro k hk k' hk' heq
    rw [heq, List.mem_singleton.mp hk'] at hk
    exact hkey hk

lemma nodup_ofPairs (pairs : List (κ × β)) : ((ofPairs pairs).map Prod.fst).Nodup := by
  induction pairs using List.reverseRecOn with
  | nil => exact List.nodup_nil
  | append_singleton pairs pair ih =>
    rw [ofPairs_append_singleton]
    exact nodup_upsert ih

/-- A key stands for its last value. -/
theorem get?_ofPairs (key : κ) (pairs : List (κ × β)) :
    get? key (ofPairs pairs) = get? key pairs.reverse := by
  induction pairs using List.reverseRecOn with
  | nil => rfl
  | append_singleton pairs pair ih =>
    rw [ofPairs_append_singleton, List.reverse_append, List.reverse_singleton, List.singleton_append,
      get?_cons]
    split_ifs with hkey
    · rw [← hkey, get?_upsert_self]
    · rw [get?_upsert_of_ne (Ne.symm hkey), ih]

end Assoc
