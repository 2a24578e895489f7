import Mathlib.Algebra.Order.BigOperators.Group.List
import PySOA.Test.PathRoundTrip
import PySOA.Test.Substitution

/-! Texts of tokens with other texts around them. The values are put in for all tokens at once: no value is
searched for tokens, and it does not matter how often a token is there. -/
namespace PySOA
open Utf8 (Text CodePoint)
namespace Paths
variable {α : Type}

inductive Part
  | literal (t : Text)
  | token (path : Text)

/-- A path in double brackets. -/
def bracketed (path : Text) : Text := openBracket :: openBracket :: (path ++ [closeBracket, closeBracket])

namespace Part

def text : Part → Text
  | literal t => t
  | token path => bracketed path

/-- No bracket opens but at a token, and a token is one that the regular expression finds. -/
def IsPlain : Part → Prop
  | literal t => openBracket ∉ t
  | token path => ∀ c ∈ path, isPathChar c = true

instance : DecidablePred IsPlain
  | .literal t => inferInstanceAs (Decidable (openBracket ∉ t))
  | .token _ => decidable_of_iff _ List.all_eq_true

def path? : Part → Option Text
  | literal _ => none
  | token path => some path

/-- The part when the tokens of one path have given way to a text. -/
def fill (path value : Text) : Part → Part
  | literal t => literal t
  | token path' => if path' = path then literal value else token path'

end Part

def render (parts : List Part) : Text := parts.flatMap Part.text
def tokenPaths (parts : List Part) : List Text := parts.filterMap Part.path?

/-- Nowhere in the text does a token start. -/
def HasNoToken (py : Builtins α) (t : Text) : Prop := ∀ rest, rest <:+ t → matchToken py rest = none

/-- What is found for a token. -/
def replacementOf (py : Builtins α) (path : Text) : Replacement := ⟨bracketed path, path, matchAction py path⟩

section scanning
variable {py : Leaves α}

lemma takeWhile_stop {β : Type} {f : β → Bool} {c : β} (h : f c = false) (l rest : List β) :
    (l ++ c :: rest).takeWhile f = l.takeWhile f := by
  induction l with
  | nil => rw [List.nil_append, List.takeWhile_cons_of_neg (Bool.not_eq_true _ ▸ h), List.takeWhile_nil]
  | cons x l ih => rw [List.cons_append, List.takeWhile_cons, List.takeWhile_cons, ih]

lemma dropWhile_stop {β : Type} {f : β → Bool} {c : β} (h : f c = false) (l rest : List β) :
    (l ++ c :: rest).dropWhile f = l.dropWhile f ++ c :: rest := by
  induction l with
  | nil => exact List.dropWhile_cons_of_neg (Bool.not_eq_true _ ▸ h)
  | cons x l ih =>
    rw [List.cons_append, List.dropWhile_cons, List.dropWhile_cons, ih]
    split_ifs
    · rfl
    · rfl

lemma isDecimal_closeBracket : isDecimal py.toBuiltins closeBracket = false := by
  apply Bool.eq_false_iff.mpr
  intro hdecimal
  have hrange := py.digit?_of_lt closeBracket (by decide) hdecimal
  exact absurd hrange.2 (by decide)

/-- An action is found, or not, before the brackets close. -/
lemma matchAction_append (path rest : Text) :
    matchAction py.toBuiltins (path ++ closeBracket :: rest) =
      (matchAction py.toBuiltins path).map (Prod.map id (· ++ closeBracket :: rest)) := by
  have hstop : isActionChar closeBracket = false := by decide
  unfold matchAction
  dsimp only
  rw [takeWhile_stop hstop, dropWhile_stop hstop]
  cases path.dropWhile isActionChar with
  | nil =>
    rw [List.nil_append]
    dsimp only
    rw [if_neg (fun h => absurd h.1 (by decide)), Option.map_none]
  | cons c behind =>
    rw [List.cons_append]
    dsimp only
    rw [takeWhile_stop isDecimal_closeBracket, dropWhile_stop isDecimal_closeBracket]
    split_ifs
    · rfl
    · rfl

lemma matchAction_append_eq {path : Text} {action : Text × Text} (h : matchAction py.toBuiltins path = some action) :
    action.1 ++ action.2 = path := by
  unfold matchAction at h
  dsimp only at h
  cases hdrop : path.dropWhile isActionChar with
  | nil =>
    rw [hdrop] at h
    cases h
  | cons c behind =>
    rw [hdrop] at h
    dsimp only at h
    split_ifs at h with hc
    obtain rfl := Option.some.inj h
    rw [List.append_assoc, List.cons_append, List.takeWhile_append_dropWhile, ← hc.1, ← hdrop,
      List.takeWhile_append_dropWhile]

lemma matchToken_bracketed (py : Leaves α) {path : Text} (h : ∀ c ∈ path, isPathChar c = true) (rest : Text) :
    matchToken py.toBuiltins (bracketed path ++ rest) = some (replacementOf py.toBuiltins path) := by
  have hinside : matchInside py.toBuiltins (path ++ closeBracket :: closeBracket :: rest) =
      some (replacementOf py.toBuiltins path) := by
    unfold matchInside
    dsimp only
    rw [matchAction_append]
    cases haction : matchAction py.toBuiltins path with
    | none =>
      rw [Option.map_none, Option.map_none, Option.getD_none, List.takeWhile_append_of_pos h,
        List.dropWhile_append_of_pos h, List.takeWhile_cons_of_neg (by decide),
        List.dropWhile_cons_of_neg (by decide)]
      dsimp only
      rw [if_pos ⟨rfl, rfl⟩, Option.map_none, Option.map_none, Option.getD_none, List.nil_append, List.append_nil,
        replacementOf, bracketed, haction]
    | some action =>
      have hpath := matchAction_append_eq haction
      have hbehind : ∀ c ∈ action.2, isPathChar c = true :=
        fun c hc => h c (hpath ▸ List.mem_append_right _ hc)
      rw [Option.map_some, Option.map_some, Option.getD_some, Prod.map_snd, List.takeWhile_append_of_pos hbehind,
        List.dropWhile_append_of_pos hbehind, List.takeWhile_cons_of_neg (by decide),
        List.dropWhile_cons_of_neg (by decide)]
      dsimp only
      rw [if_pos ⟨rfl, rfl⟩, Option.map_some, Option.map_some, Option.getD_some, Prod.map_fst, List.append_nil, id,
        hpath, replacementOf, bracketed, haction]
  rw [bracketed, List.cons_append, List.cons_append, List.append_assoc]
  rw [matchToken, if_pos ⟨rfl, rfl⟩]
  exact hinside

/-- Tokens are found in a text that has one. -/
lemma findTokens_eq_nil_iff {py : Builtins α} {t : Text} : findTokens py 0 t = [] ↔ HasNoToken py t := by
  unfold HasNoToken
  induction t with
  | nil =>
    refine iff_of_true rfl fun rest hrest => ?_
    rw [List.suffix_nil.mp hrest]
    rfl
  | cons c t ih =>
    rw [findTokens]
    cases hmatch : matchToken py (c :: t) with
    | some replacement =>
      refine iff_of_false (List.cons_ne_nil _ _) fun h => ?_
      rw [h (c :: t) List.suffix_rfl] at hmatch
      cases hmatch
    | none =>
      simp only [List.suffix_cons_iff, forall_eq_or_imp, hmatch, true_and]
      exact ih

lemma findTokens_skip (t rest : Text) :
    findTokens py.toBuiltins t.length (t ++ rest) = findTokens py.toBuiltins 0 rest := by
  induction t with
  | nil => rfl
  | cons c t ih => exact ih

lemma findTokens_literal {t : Text} (h : openBracket ∉ t) (rest : Text) :
    findTokens py.toBuiltins 0 (t ++ rest) = findTokens py.toBuiltins 0 rest := by
  induction t with
  | nil => rfl
  | cons c t ih =>
    have hc : c ≠ openBracket := fun hc => h (hc ▸ List.mem_cons_self)
    have hnone : matchToken py.toBuiltins (c :: (t ++ rest)) = none := by
      unfold matchToken
      split
      · rename_i heq
        rw [if_neg]
        rintro ⟨rfl, -⟩
        exact hc (List.cons.inj heq).1
      · rfl
    rw [List.cons_append, findTokens, hnone]
    exact ih fun hmem => h (List.mem_cons_of_mem _ hmem)

lemma findTokens_bracketed (py : Leaves α) {path : Text} (h : ∀ c ∈ path, isPathChar c = true) (rest : Text) :
    findTokens py.toBuiltins 0 (bracketed path ++ rest) =
      replacementOf py.toBuiltins path :: findTokens py.toBuiltins 0 rest := by
  have hmatch := matchToken_bracketed py h rest
  rw [bracketed, List.cons_append] at hmatch ⊢
  rw [findTokens, hmatch]
  dsimp only
  rw [replacementOf, bracketed, List.length_cons, Nat.add_sub_cancel, findTokens_skip]

/-- The tokens are found, from the first to the last. -/
lemma findTokens_render (py : Leaves α) {parts : List Part} (h : ∀ part ∈ parts, part.IsPlain) :
    findTokens py.toBuiltins 0 (render parts) = (tokenPaths parts).map (replacementOf py.toBuiltins) := by
  induction parts with
  | nil => rfl
  | cons part parts ih =>
    have hrest := ih fun part' hmem => h part' (List.mem_cons_of_mem _ hmem)
    have hpart := h part List.mem_cons_self
    rw [render, List.flatMap_cons]
    cases part with
    | literal t => exact (findTokens_literal hpart _).trans hrest
    | token path => exact (findTokens_bracketed py hpart _).trans (congrArg _ hrest)

end scanning

section filling
variable {old new : Text}

lemma replaceAll_skip (t rest : Text) : replaceAll old new t.length (t ++ rest) = replaceAll old new 0 rest := by
  induction t with
  | nil => rfl
  | cons c t ih => exact ih

/-- What the old text does not start in stays. -/
lemma replaceAll_append {t rest : Text} (h : ∀ c ∈ t, old.head? ≠ some c) (hne : old ≠ []) :
    replaceAll old new 0 (t ++ rest) = t ++ replaceAll old new 0 rest := by
  induction t with
  | nil => rfl
  | cons c t ih =>
    have hnot : ¬old.isPrefixOf (c :: (t ++ rest)) = true := by
      intro hprefix
      obtain ⟨tail, htail⟩ := List.isPrefixOf_iff_prefix.mp hprefix
      cases old with
      | nil => exact hne rfl
      | cons c' old => exact h c List.mem_cons_self (congrArg some (List.cons.inj htail).1)
    rw [List.cons_append, replaceAll, if_neg hnot, List.cons_append]
    exact congrArg _ (ih fun c' hmem => h c' (List.mem_cons_of_mem _ hmem))

lemma replaceAll_self (rest : Text) (hne : old ≠ []) :
    replaceAll old new 0 (old ++ rest) = new ++ replaceAll old new 0 rest := by
  cases old with
  | nil => exact absurd rfl hne
  | cons c old =>
    have hprefix : (c :: old).isPrefixOf (c :: (old ++ rest)) = true :=
      List.isPrefixOf_iff_prefix.mpr ⟨rest, rfl⟩
    rw [List.cons_append, replaceAll, if_pos hprefix, List.length_cons, Nat.add_sub_cancel, replaceAll_skip]

lemma bracketed_ne_nil (path : Text) : bracketed path ≠ [] := List.cons_ne_nil _ _

lemma ne_openBracket_of_isPathChar {c : CodePoint} (h : isPathChar c = true) : c ≠ openBracket := by
  rintro rfl
  exact absurd h (by decide)

/-- Different tokens do not start in the same place. -/
lemma eq_of_prefix_bracketed {path path' rest : Text} (hpath : ∀ c ∈ path, isPathChar c = true)
    (hpath' : ∀ c ∈ path', isPathChar c = true) (h : bracketed path <+: bracketed path' ++ rest) : path' = path := by
  obtain ⟨tail, htail⟩ := h
  have hbehind : path ++ closeBracket :: closeBracket :: tail = path' ++ closeBracket :: closeBracket :: rest := by
    have h : path ++ [closeBracket, closeBracket] ++ tail = path' ++ [closeBracket, closeBracket] ++ rest :=
      (List.cons.inj (List.cons.inj htail).2).2
    rwa [List.append_assoc, List.append_assoc] at h
  have hinside := congrArg (List.takeWhile isPathChar) hbehind
  have hall {t : Text} (ht : ∀ c ∈ t, isPathChar c = true) (rest : Text) :
      (t ++ closeBracket :: rest).takeWhile isPathChar = t := by
    rw [List.takeWhile_append_of_pos ht, List.takeWhile_cons_of_neg (by decide), List.append_nil]
  rw [hall hpath, hall hpath'] at hinside
  exact hinside.symm

lemma openBracket_notMem {path : Text} (h : ∀ c ∈ path, isPathChar c = true) :
    ∀ c ∈ path ++ [closeBracket, closeBracket], some openBracket ≠ some c := by
  intro c hc heq
  obtain rfl := Option.some.inj heq
  rcases List.mem_append.mp hc with hc | hc
  · exact ne_openBracket_of_isPathChar (h _ hc) rfl
  · exact absurd hc (by decide)

/-- Another token stays. -/
lemma replaceAll_bracketed {path path' : Text} (hpath : ∀ c ∈ path, isPathChar c = true)
    (hpath' : ∀ c ∈ path', isPathChar c = true) (hne : path' ≠ path) (rest : Text) :
    replaceAll (bracketed path) new 0 (bracketed path' ++ rest) =
      bracketed path' ++ replaceAll (bracketed path) new 0 rest := by
  have hfirst : ¬(bracketed path).isPrefixOf (bracketed path' ++ rest) = true :=
    fun h => hne (eq_of_prefix_bracketed hpath hpath' (List.isPrefixOf_iff_prefix.mp h))
  have hinside := openBracket_notMem hpath'
  -- At the second bracket the first one of the token would be followed by what is inside.
  have hsecond : ¬(bracketed path).isPrefixOf
      (openBracket :: (path' ++ [closeBracket, closeBracket] ++ rest)) = true := by
    intro h
    obtain ⟨tail, htail⟩ := List.isPrefixOf_iff_prefix.mp h
    have hbehind := (List.cons.inj htail).2
    cases hempty : path' ++ [closeBracket, closeBracket] with
    | nil => exact List.append_ne_nil_of_right_ne_nil _ (List.cons_ne_nil _ _) hempty
    | cons c behind =>
      rw [hempty] at hbehind hinside
      exact hinside c List.mem_cons_self (congrArg some (List.cons.inj hbehind).1)
  have hrest : replaceAll (bracketed path) new 0 (path' ++ [closeBracket, closeBracket] ++ rest) =
      path' ++ [closeBracket, closeBracket] ++ replaceAll (bracketed path) new 0 rest :=
    replaceAll_append hinside (bracketed_ne_nil path)
  rw [show bracketed path' ++ rest = openBracket :: openBracket :: (path' ++ [closeBracket, closeBracket] ++ rest)
    from rfl] at hfirst ⊢
  rw [replaceAll, if_neg hfirst, replaceAll, if_neg hsecond, hrest]
  rfl

/-- Replacing a token fills it in wherever it is. -/
lemma replaceAll_render {parts : List Part} {path : Text} (h : ∀ part ∈ parts, part.IsPlain)
    (hpath : ∀ c ∈ path, isPathChar c = true) (value : Text) :
    replaceAll (bracketed path) value 0 (render parts) = render (parts.map (Part.fill path value)) := by
  induction parts with
  | nil => rfl
  | cons part parts ih =>
    have hrest := ih fun part' hmem => h part' (List.mem_cons_of_mem _ hmem)
    have hpart := h part List.mem_cons_self
    rw [render, List.flatMap_cons, ← render, List.map_cons]
    rw [show render (Part.fill path value part :: parts.map (Part.fill path value)) =
      (Part.fill path value part).text ++ render (parts.map (Part.fill path value)) from rfl, ← hrest]
    cases part with
    | literal t =>
      apply replaceAll_append _ (bracketed_ne_nil path)
      intro c hc heq
      exact hpart ((Option.some.inj heq) ▸ hc)
    | token path' =>
      rw [Part.fill]
      split_ifs with heq
      · rw [heq]
        exact replaceAll_self _ (bracketed_ne_nil path)
      · exact replaceAll_bracketed hpath hpart heq _

end filling

section substituting
variable (py : Leaves α) (sources : List (Data α))

/-- The text with the values of all tokens in it, and the error of the first one that has none. -/
def interpolate : List Part → Except SubstitutionError Text
  | [] => .ok []
  | .literal t :: parts => (interpolate parts).map (t ++ ·)
  | .token path :: parts => do
    let value ← valueFor py sources (replacementOf py.toBuiltins path)
    return py.toText value ++ (← interpolate parts)

variable {py sources}

/-- Filling in a token with its value changes nothing. -/
lemma interpolate_fill {path : Text} {value : Data α}
    (hvalue : valueFor py sources (replacementOf py.toBuiltins path) = .ok value) (parts : List Part) :
    interpolate py sources (parts.map (Part.fill path (py.toText value))) = interpolate py sources parts := by
  induction parts with
  | nil => rfl
  | cons part parts ih =>
    rw [List.map_cons]
    cases part with
    | literal t => rw [Part.fill, interpolate, interpolate, ih]
    | token path' =>
      rw [Part.fill]
      split_ifs with heq
      · rw [interpolate, interpolate, ih, heq, hvalue]
        rfl
      · rw [interpolate, interpolate, ih]

/-- A text without tokens is all there. -/
lemma interpolate_of_tokenPaths_nil {parts : List Part} (h : tokenPaths parts = []) :
    interpolate py sources parts = .ok (render parts) := by
  induction parts with
  | nil => rfl
  | cons part parts ih =>
    cases part with
    | literal t =>
      rw [interpolate, ih h]
      rfl
    | token path => cases h

/-- The first token that is met without a value decides. -/
lemma interpolate_of_error {parts : List Part} {path : Text} {paths : List Text} {e : SubstitutionError}
    (h : tokenPaths parts = path :: paths)
    (hvalue : valueFor py sources (replacementOf py.toBuiltins path) = .error e) :
    interpolate py sources parts = .error e := by
  induction parts with
  | nil => cases h
  | cons part parts ih =>
    cases part with
    | literal t =>
      rw [interpolate, ih h]
      rfl
    | token path' =>
      obtain ⟨rfl, -⟩ := List.cons.inj h
      rw [interpolate, hvalue]
      rfl

lemma tokenPaths_fill (path value : Text) (parts : List Part) :
    tokenPaths (parts.map (Part.fill path value)) = (tokenPaths parts).filter (· ≠ path) := by
  induction parts with
  | nil => rfl
  | cons part parts ih =>
    unfold tokenPaths at ih ⊢
    cases part with
    | literal t => exact ih
    | token path' =>
      rw [List.map_cons, Part.fill, List.filterMap_cons_some (show Part.path? (.token path') = some path' from rfl)]
      split_ifs with heq
      · rw [List.filter_cons_of_neg (by simpa using heq), ← ih]
        rfl
      · rw [List.filter_cons_of_pos (by simpa using heq), ← ih]
        rfl

lemma isPlain_fill {path value : Text} {parts : List Part} (h : ∀ part ∈ parts, part.IsPlain)
    (hvalue : openBracket ∉ value) : ∀ part ∈ parts.map (Part.fill path value), part.IsPlain := by
  intro part hpart
  obtain ⟨part, hmem, rfl⟩ := List.mem_map.mp hpart
  cases part with
  | literal t => exact h _ hmem
  | token path' =>
    rw [Part.fill]
    split_ifs
    · exact hvalue
    · exact h _ hmem

lemma length_bracketed_le {parts : List Part} {path t : Text} (hpath : path ∈ tokenPaths parts)
    (ht : .literal t ∈ parts) : (bracketed path).length + t.length ≤ (render parts).length := by
  have hlength (parts : List Part) : (render parts).length = (parts.map fun part => part.text.length).sum :=
    List.length_flatMap
  obtain ⟨part, hpart, hsome⟩ := List.mem_filterMap.mp hpath
  cases part with
  | literal t => cases hsome
  | token path' =>
    obtain rfl := Option.some.inj hsome
    obtain ⟨before, behind, rfl⟩ := List.append_of_mem hpart
    have hothers : t.length ≤ ((before ++ behind).map fun part => part.text.length).sum := by
      apply List.le_sum_of_mem
      apply List.mem_map.mpr ⟨Part.literal t, _, rfl⟩
      rcases List.mem_append.mp ht with ht | ht
      · exact List.mem_append_left _ ht
      · rcases List.mem_cons.mp ht with ht | ht
        · cases ht
        · exact List.mem_append_right _ ht
    rw [hlength, List.map_append, List.map_cons, List.sum_append, List.sum_cons, Part.text]
    rw [List.map_append, List.sum_append] at hothers
    omega

/-- With a text around it, a token is not all there is. -/
lemma render_ne_bracketed (py : Leaves α) {parts : List Part} {path t : Text} (h : ∀ part ∈ parts, part.IsPlain)
    (hpath : ∀ c ∈ path, isPathChar c = true) (ht : .literal t ∈ parts) (hne : t ≠ []) :
    render parts ≠ bracketed path := by
  intro heq
  have htokens : (tokenPaths parts).map (replacementOf py.toBuiltins) = [replacementOf py.toBuiltins path] := by
    have hsingle := findTokens_bracketed py hpath []
    rw [List.append_nil] at hsingle
    rw [← findTokens_render py h, heq, hsingle]
    rfl
  have hmem : path ∈ tokenPaths parts := by
    have hfull := congrArg (List.map Replacement.fullPath) htokens
    rw [List.map_map] at hfull
    rw [show tokenPaths parts = [path] from (List.map_id _).symm.trans hfull]
    exact List.mem_singleton_self path
  have hlength := length_bracketed_le hmem ht
  have hpos := List.length_pos_of_ne_nil hne
  rw [heq] at hlength
  omega

/-- The tokens in the text are, of those to come, the ones to fill in yet. -/
lemma putAllIn_render {paths : List Text} {parts : List Part} {t : Text} {unfilled : Text → Bool}
    (h : ∀ part ∈ parts, part.IsPlain) (ht : .literal t ∈ parts) (hne : t ≠ [])
    (hpaths : ∀ path ∈ paths, ∀ c ∈ path, isPathChar c = true)
    (hplain : ∀ path ∈ paths, ∀ value, valueFor py sources (replacementOf py.toBuiltins path) = .ok value →
      openBracket ∉ py.toText value)
    (hunfilled : tokenPaths parts = paths.filter unfilled)
    (hfilled : ∀ path ∈ paths, ¬unfilled path = true →
      ∃ value, valueFor py sources (replacementOf py.toBuiltins path) = .ok value) :
    putAllIn py sources (.leaf (py.ofText (render parts))) (paths.map (replacementOf py.toBuiltins)) =
      (interpolate py sources parts).map fun t => .leaf (py.ofText t) := by
  induction paths generalizing parts unfilled with
  | nil =>
    rw [interpolate_of_tokenPaths_nil hunfilled]
    rfl
  | cons path paths ih =>
    have hpath := hpaths path List.mem_cons_self
    rw [List.map_cons, putAllIn, List.foldlM_cons]
    cases hvalue : valueFor py sources (replacementOf py.toBuiltins path) with
    | error e =>
      have hnow : unfilled path = true := by
        by_contra hnot
        obtain ⟨value, hvalue'⟩ := hfilled path List.mem_cons_self hnot
        rw [hvalue] at hvalue'
        cases hvalue'
      rw [List.filter_cons_of_pos hnow] at hunfilled
      rw [interpolate_of_error hunfilled hvalue]
      rfl
    | ok value =>
      have hput : putIn py (.leaf (py.ofText (render parts))) (bracketed path) value =
          .ok (.leaf (py.ofText (render (parts.map (Part.fill path (py.toText value)))))) := by
        rw [putIn, py.text?_ofText]
        dsimp only
        rw [if_neg (render_ne_bracketed py h hpath ht hne), replaceAll_render h hpath]
      have hrest : tokenPaths (parts.map (Part.fill path (py.toText value))) =
          paths.filter fun path' => decide (path' ≠ path) && unfilled path' := by
        rw [tokenPaths_fill, hunfilled, List.filter_filter, List.filter_cons_of_neg (by simp)]
      have hothers : ∀ path' ∈ paths, ¬(decide (path' ≠ path) && unfilled path') = true →
          ∃ value, valueFor py sources (replacementOf py.toBuiltins path') = .ok value := by
        intro path' hmem hnot
        by_cases heq : path' = path
        · exact ⟨value, heq ▸ hvalue⟩
        · apply hfilled path' (List.mem_cons_of_mem _ hmem)
          rwa [decide_eq_true heq, Bool.true_and] at hnot
      have hnext := ih (isPlain_fill h (hplain path List.mem_cons_self value hvalue))
        (List.mem_map_of_mem ht) (fun path' hmem => hpaths path' (List.mem_cons_of_mem _ hmem))
        (fun path' hmem => hplain path' (List.mem_cons_of_mem _ hmem)) hrest hothers
      rw [interpolate_fill hvalue] at hnext
      rw [← hnext]
      exact congrArg (· >>= _) hput

lemma tokenPaths_isPathChar {parts : List Part} (h : ∀ part ∈ parts, part.IsPlain) :
    ∀ path ∈ tokenPaths parts, ∀ c ∈ path, isPathChar c = true := by
  intro path hpath
  obtain ⟨part, hpart, hsome⟩ := List.mem_filterMap.mp hpath
  cases part with
  | literal t => cases hsome
  | token path' =>
    obtain rfl := Option.some.inj hsome
    exact h _ hpart

variable (py sources) in
lemma substituteValue_bracketed {path : Text} (h : ∀ c ∈ path, isPathChar c = true) :
    substituteValue py sources (.leaf (py.ofText (bracketed path))) =
      (valueFor py sources (replacementOf py.toBuiltins path)).map some := by
  have hfind : findTokens py.toBuiltins 0 (bracketed path) = [replacementOf py.toBuiltins path] := by
    have hfirst := findTokens_bracketed py h []
    rwa [List.append_nil] at hfirst
  rw [substituteValue, py.text?_ofText]
  dsimp only
  rw [hfind]
  unfold putAllIn
  dsimp only
  rw [List.foldlM_cons]
  cases hvalue : valueFor py sources (replacementOf py.toBuiltins path) with
  | error e => rfl
  | ok value =>
    have hput : putIn py (.leaf (py.ofText (bracketed path))) (bracketed path) value = .ok value := by
      rw [putIn, py.text?_ofText]
      dsimp only
      rw [if_pos rfl]
    exact congrArg (fun out => Except.map some (out >>= fun out => List.foldlM _ out [])) hput

variable (py sources) in
lemma substituteValue_of_hasNoToken {t : Text} (h : HasNoToken py.toBuiltins t) :
    substituteValue py sources (.leaf (py.ofText t)) = .ok none := by
  rw [substituteValue, py.text?_ofText]
  dsimp only
  rw [findTokens_eq_nil_iff.mpr h]

variable (py sources) in
/-- A text that is a token gives way to the value for it. A text in which there is something around the tokens
becomes the text with the texts of the values for all of them, as long as no bracket opens in these, and if one
has no value, then the error is that of the first such. A text without tokens stays, wherever brackets open in
it. -/
theorem substituteValue_render {parts : List Part} (h : ∀ part ∈ parts, part.IsPlain) :
    (∀ t, HasNoToken py.toBuiltins t → substituteValue py sources (.leaf (py.ofText t)) = .ok none) ∧
    (tokenPaths parts = [] → substituteValue py sources (.leaf (py.ofText (render parts))) = .ok none) ∧
    (∀ path, parts = [.token path] → substituteValue py sources (.leaf (py.ofText (render parts))) =
      (valueFor py sources (replacementOf py.toBuiltins path)).map some) ∧
    (tokenPaths parts ≠ [] → (∃ t, t ≠ [] ∧ .literal t ∈ parts) →
      (∀ path ∈ tokenPaths parts, ∀ value, valueFor py sources (replacementOf py.toBuiltins path) = .ok value →
        openBracket ∉ py.toText value) →
      substituteValue py sources (.leaf (py.ofText (render parts))) =
        (interpolate py sources parts).map fun t => some (.leaf (py.ofText t))) := by
  have hfind := findTokens_render py h
  refine ⟨fun t ht => substituteValue_of_hasNoToken py sources ht, ?_, ?_, ?_⟩
  · intro hnil
    rw [hnil] at hfind
    exact substituteValue_of_hasNoToken py sources (findTokens_eq_nil_iff.mp hfind)
  · rintro path rfl
    have hrender : render [.token path] = bracketed path := List.append_nil _
    rw [hrender]
    exact substituteValue_bracketed py sources (h _ List.mem_cons_self)
  · rintro hne ⟨t, ht, hmem⟩ hplain
    have hall : tokenPaths parts = (tokenPaths parts).filter fun _ => true := (List.filter_true _).symm
    have hput := putAllIn_render h hmem ht (tokenPaths_isPathChar h) hplain hall
      fun path hpath hnot => absurd rfl hnot
    rw [substituteValue, py.text?_ofText]
    dsimp only
    rw [hfind]
    cases hpaths : tokenPaths parts with
    | nil => exact absurd hpaths hne
    | cons path paths =>
      rw [hpaths] at hput
      rw [List.map_cons] at hput ⊢
      dsimp only
      rw [hput]
      cases interpolate py sources parts with
      | error e => rfl
      | ok t => rfl

end substituting

section sizes

def sizes : Data (Text ⊕ ℕ) := .dict [(.name (text "size"), .leaf (.inr 12))]

/-- A size, with the path once in capitals. -/
def sizeTemplate : List Part :=
  [.literal (text "size "), .token (text "size"), .literal (text " of "), .token (text "SIZE")]

lemma valueFor_sizeTemplate : ∀ path ∈ tokenPaths sizeTemplate,
    valueFor plainLeaves [sizes] (replacementOf plainLeaves.toBuiltins path) = .ok (.leaf (.inr 12)) := by
  have hnext (path : Text) (h : pathGetNextPathElement plainLeaves.toBuiltins path = .ok (some (.name path, none))) :
      pathGet plainLeaves.toBuiltins sizes path = getSlot plainLeaves.toBuiltins sizes (.name path) := pathGet_last h
  have hsize : pathGet plainLeaves.toBuiltins sizes (text "size") = .ok (.leaf (.inr 12)) :=
    (hnext _ rfl).trans rfl
  have hcapitals : pathGet plainLeaves.toBuiltins sizes (text "SIZE") = .error (.keyError (.name (text "SIZE"))) :=
    (hnext _ rfl).trans rfl
  rw [show tokenPaths sizeTemplate = [text "size", text "SIZE"] from rfl, List.forall_mem_cons,
    List.forall_mem_singleton]
  have hlower : lower (text "SIZE") = text "size" := by decide
  constructor
  · rw [valueFor, show findPath plainLeaves [sizes] (replacementOf plainLeaves.toBuiltins (text "size")) =
      .ok (text "size") from rfl]
    dsimp only
    rw [findPathInSources, getFirst, hsize]
  · rw [valueFor, show findPath plainLeaves [sizes] (replacementOf plainLeaves.toBuiltins (text "SIZE")) =
      .ok (text "SIZE") from rfl]
    dsimp only
    rw [findPathInSources, getFirst, hcapitals]
    dsimp only
    rw [PathError.isLookup, if_pos rfl, getFirst, hlower, hsize]

theorem substituteValue_render_sizeTemplate :
    substituteValue plainLeaves [sizes] (.leaf (.inl (render sizeTemplate))) =
      .ok (some (.leaf (.inl (text "size 12 of 12")))) := by
  have hvalue := valueFor_sizeTemplate
  have hplain : ∀ path ∈ tokenPaths sizeTemplate, ∀ value,
      valueFor plainLeaves [sizes] (replacementOf plainLeaves.toBuiltins path) = .ok value →
        openBracket ∉ plainLeaves.toText value := by
    intro path hpath value heq
    obtain rfl := Except.ok.inj ((hvalue path hpath).symm.trans heq)
    decide
  have hinterpolate : interpolate plainLeaves [sizes] sizeTemplate = .ok (text "size 12 of 12") := by
    simp only [sizeTemplate, interpolate, hvalue _ (show text "size" ∈ tokenPaths sizeTemplate by decide),
      hvalue _ (show text "SIZE" ∈ tokenPaths sizeTemplate by decide)]
    rfl
  have hsubstitute := (substituteValue_render plainLeaves [sizes]
    (show ∀ part ∈ sizeTemplate, part.IsPlain by decide)).2.2.2 (by decide)
      ⟨text "size ", by decide, List.mem_cons_self⟩ hplain
  rw [hinterpolate] at hsubstitute
  exact hsubstitute

end sizes
end Paths
end PySOA
