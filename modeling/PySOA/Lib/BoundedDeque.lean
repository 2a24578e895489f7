import Mathlib.Data.List.DropRight
import Mathlib.Data.List.Infix

/-! A queue that forgets its oldest entries, and what its oldest entry tells about all that has
ever been appended. -/

/-- A queue with a bound on its length. -/
structure BoundedDeque (α : Type*) (maxlen : ℕ) where
  items : List α
  length_le : items.length ≤ maxlen

namespace BoundedDeque
variable {α : Type*} {maxlen : ℕ}

lemma length_rtake (n : ℕ) (l : List α) : (l.rtake n).length = min n l.length := by
  rw [List.rtake, List.length_drop]
  omega

lemma rtake_append_singleton (n : ℕ) (l : List α) (x : α) :
    (l ++ [x]).rtake n = (l.rtake n ++ [x]).rtake n := by
  cases n with
  | zero => simp
  | succ n =>
    rw [List.rtake_concat_succ, List.rtake_concat_succ]
    unfold List.rtake
    rw [List.drop_drop, List.length_drop]
    congr 2
    omega

def empty : BoundedDeque α maxlen := ⟨[], Nat.zero_le _⟩

/-- A new entry at the end. A full queue loses its first entry. -/
def append (q : BoundedDeque α maxlen) (x : α) : BoundedDeque α maxlen where
  items := (q.items ++ [x]).rtake maxlen
  length_le := by
    rw [length_rtake]
    exact Nat.min_le_left _ _

/-- The first entry of a full queue. -/
def oldest? (q : BoundedDeque α maxlen) : Option α :=
  if q.items.length = maxlen then q.items.head? else none

/-- The queue holds the end of what has been appended. -/
def Holds (q : BoundedDeque α maxlen) (history : List α) : Prop := q.items = history.rtake maxlen

lemma holds_empty : Holds (empty : BoundedDeque α maxlen) [] := (List.rtake_nil maxlen).symm

lemma Holds.append {q : BoundedDeque α maxlen} {history : List α} (h : q.Holds history) (x : α) :
    (q.append x).Holds (history ++ [x]) := by
  unfold Holds at h ⊢
  rw [rtake_append_singleton, ← h]
  rfl

/-- If a property passes from each entry to those behind it, then it holds of at least as many
entries as a queue keeps exactly if the queue is full and it holds of the oldest entry. -/
theorem Holds.le_countP_iff {q : BoundedDeque α maxlen} {history : List α} (h : q.Holds history)
    {p : α → Bool} (hp : history.Pairwise fun a b => p a = true → p b = true) (hpos : 0 < maxlen) :
    maxlen ≤ history.countP p ↔ ∃ a, q.oldest? = some a ∧ p a = true := by
  have hlength : q.items.length = min maxlen history.length := by
    rw [h]
    exact length_rtake maxlen history
  by_cases hfull : maxlen ≤ history.length
  · -- the entries in front of the queue, the oldest in the queue, and those behind it
    obtain ⟨a, kept, hkept⟩ : ∃ a kept, q.items = a :: kept :=
      List.exists_cons_of_length_pos (by omega)
    have holdest : q.oldest? = some a := by
      rw [oldest?, if_pos (by omega), hkept, List.head?_cons]
    have hsplit : history = history.take (history.length-maxlen) ++ a :: kept := by
      rw [← hkept, h]
      exact (List.take_append_drop _ _).symm
    have hcount : history.countP p = (history.take (history.length-maxlen)).countP p +
        (a :: kept).countP p := by
      rw [← List.countP_append, ← hsplit]
    have hlast : (a :: kept).length = maxlen := by
      rw [← hkept, hlength]
      exact Nat.min_eq_left hfull
    rw [hsplit, List.pairwise_append] at hp
    obtain ⟨-, hafter, hacross⟩ := hp
    rw [holdest, hcount]
    simp only [Option.some.injEq, exists_eq_left']
    constructor
    · intro hle
      by_contra ha
      have hfront : (history.take (history.length-maxlen)).countP p = 0 := by
        rw [List.countP_eq_zero]
        intro b hb hpb
        exact ha (hacross b hb a List.mem_cons_self hpb)
      have hback := List.countP_le_length (p := p) (l := kept)
      rw [hfront, List.countP_cons_of_neg ha] at hle
      rw [List.length_cons] at hlast
      omega
    · intro ha
      have hall : (a :: kept).countP p = (a :: kept).length := by
        rw [List.countP_eq_length]
        intro b hb
        obtain rfl | hb := List.mem_cons.mp hb
        · exact ha
        · exact (List.pairwise_cons.mp hafter).1 b hb ha
      omega
  · have hnone : q.oldest? = none := by
      rw [oldest?, if_neg (by omega)]
    have hcount := List.countP_le_length (p := p) (l := history)
    rw [hnone]
    refine iff_of_false (by omega) ?_
    rintro ⟨a, ha, -⟩
    cases ha

end BoundedDeque

/-- If each entry finds fewer than `n` earlier ones that are close to it, then at most `n` of them are
in a set whose entries are all close to each other. -/
theorem List.countP_le_of_few_near {α : Type*} {l : List α} {near : α → α → Bool} {p : α → Bool}
    {n : ℕ} (hl : ∀ earlier t, earlier ++ [t] <+: l → earlier.countP (near t) < n)
    (hp : ∀ earlier t, earlier ++ [t] <+: l → p t = true → ∀ r ∈ earlier, p r = true → near t r = true) :
    l.countP p ≤ n := by
  induction l using List.reverseRecOn with
  | nil => exact Nat.zero_le n
  | append_singleton l t ih =>
    rw [List.countP_append, List.countP_singleton]
    split_ifs with ht
    · have hcount : l.countP p ≤ l.countP (near t) := by
        apply List.countP_mono_left
        exact hp l t List.prefix_rfl ht
      have hfew := hl l t List.prefix_rfl
      omega
    · apply ih
      · intro earlier t' h
        exact hl earlier t' (h.trans (List.prefix_append l [t]))
      · intro earlier t' h
        exact hp earlier t' (h.trans (List.prefix_append l [t]))
