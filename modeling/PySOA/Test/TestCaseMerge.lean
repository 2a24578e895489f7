import PySOA.Lib.DocumentOverlay
import PySOA.Test.PathRoundTrip
import PySOA.Test.Substitution

/-! Test cases over the global directives of their fixture. -/
namespace PySOA
open Utf8 (Text CodePoint)

inductive FixtureError
  | syntaxError (message : Text)
  | error (e : PathError)

namespace Paths
variable {α : Type} (py : Builtins α)

/-- Puts at a path what the data has there. -/
def overlayPath (data out : Data α) (path : Text) : Except FixtureError (Data α) :=
  match (do pathPut py out path (← pathGet py data path)) with
  | .ok out => .ok out
  | .error e =>
    if e.isLookup then .error (.syntaxError (text "Invalid path: " ++ text "`" ++ path ++ text "`"))
    else .error (.error e)

def overlayPaths (data out : Data α) (paths : List Text) : Except FixtureError (Data α) :=
  paths.foldlM (overlayPath py data) out

/-- The end of `_finalize_test_case`: the test case that is made from the global directives and the directives of
the test case itself. The hooks of the directives are left out. -/
def finalizeTestCase (globalDirectives workingTestCase : Data α) : Except FixtureError (Data α) :=
  if globalDirectives.children.isEmpty then .ok workingTestCase
  else do
    let testCase ← overlayPaths py globalDirectives (.dict []) (getAllPaths py [] true globalDirectives)
    overlayPaths py workingTestCase testCase (getAllPaths py [] true workingTestCase)

variable {py}

lemma overlayPaths_of_putPaths {data out out' : Data α} {paths : List Text}
    (h : putPaths py data out paths = .ok out') : overlayPaths py data out paths = .ok out' := by
  induction paths generalizing out with
  | nil =>
    cases h
    rfl
  | cons path paths ih =>
    rw [putPaths, List.foldlM_cons] at h
    rw [overlayPaths, List.foldlM_cons, overlayPath]
    cases hput : (do pathPut py out path (← pathGet py data path) : Except PathError (Data α)) with
    | error e =>
      rw [hput] at h
      cases h
    | ok out₁ =>
      rw [hput] at h
      exact ih h

/-- The paths of a dict put what it has at its tips. -/
lemma putPaths_dict {entries : List (Slot Text × Data α)} (h : Document.Everywhere IsPlain (.dict entries : Data α))
    {out out' : Data α} (hput : Document.putAll .list out (Document.entryTips true entries) = some out') :
    putPaths py (.dict entries) out (getAllPaths py [] true (.dict entries)) = .ok out' := by
  rw [getAllPaths_dict h]
  apply putPaths_pathText _ hput
  intro tip htip
  obtain ⟨hne, hleaf, -⟩ := (mem_entryTips_dict h).mp htip
  exact ⟨hne, isPlainSlot_of_get? h hleaf, hleaf⟩

variable (py)

/-- What a test case has at its own leaves, blank dicts and lists among them, is there, and what the global directives
have is at all places on which it is silent. Where it goes on, the global directives must not have a leaf, nor a
dict where it has a list. -/
theorem finalizeTestCase_eq_ok {globals entries : List (Slot Text × Data α)} (hne : entries ≠ [])
    (hglobals : Document.Everywhere IsPlain (.dict globals : Data α))
    (hentries : Document.Everywhere IsPlain (.dict entries : Data α))
    (hfits : Document.Fits .list (.dict entries) (.dict globals : Data α)) :
    ∃ testCase, finalizeTestCase py (.dict globals) (.dict entries) = .ok testCase ∧
      (∀ place leaf, (Document.dict entries).get? place = some leaf → leaf.isTip true = true →
        testCase.get? place = some leaf) ∧
      ∀ place, Document.Silent (.dict entries) place →
        testCase.get? place = (Document.dict globals).get? place := by
  rw [finalizeTestCase, Document.children]
  by_cases hempty : globals.isEmpty = true
  · rw [if_pos hempty]
    refine ⟨_, rfl, fun place leaf hleaf _ => hleaf, ?_⟩
    intro place hsilent
    rw [hsilent.1, List.isEmpty_iff.mp hempty]
    cases place with
    | nil => cases hsilent.1
    | cons s place => rfl
  · rw [if_neg hempty]
    have htip : ¬(Document.dict entries : Data α).isTip true = true := by
      intro h
      exact hne (List.isEmpty_iff.mp h)
    have hbase : overlayPaths py (.dict globals) (.dict []) (getAllPaths py [] true (.dict globals)) =
        .ok (.dict globals) :=
      overlayPaths_of_putPaths (putPaths_dict hglobals (Document.putAll_tips_dict (hglobals.mono IsPlain.regular)))
    have htips := Document.overlaid (hentries.mono IsPlain.regular) _ (hglobals.mono IsPlain.regular) hfits
    rw [Document.tips_eq, if_neg htip] at htips
    have htop : overlayPaths py (.dict entries) (.dict globals) (getAllPaths py [] true (.dict entries)) =
        .ok (Document.overlay (.dict entries) (.dict globals)) :=
      overlayPaths_of_putPaths (putPaths_dict hentries htips)
    rw [hbase]
    refine ⟨_, htop, ?_, ?_⟩
    · intro place leaf hleaf hleafTip
      exact Document.get?_overlay_of_isTip (hentries.mono IsPlain.named) hfits hleaf hleafTip
    · intro place hsilent
      exact Document.get?_overlay_of_silent (hentries.mono IsPlain.named) hfits hsilent

/-- Inputs for all test cases of a fixture. -/
def globalInputs : List (Slot Text × Data ℕ) :=
  [(.name (text "get.0"), .dict [(.name (text "id"), .leaf 1), (.name (text "limit"), .leaf 10)])]

/-- A test case with another one of them. -/
def limitedCase : List (Slot Text × Data ℕ) :=
  [(.name (text "name"), .leaf 0), (.name (text "get.0"), .dict [(.name (text "limit"), .leaf 5)])]

theorem finalizeTestCase_eq_ok_limitedCase :
    ∃ testCase, finalizeTestCase asciiBuiltins (.dict globalInputs) (.dict limitedCase) = .ok testCase ∧
      testCase.get? [.name (text "get.0"), .name (text "limit")] = some (.leaf 5) ∧
      testCase.get? [.name (text "get.0"), .name (text "id")] = some (.leaf 1) := by
  have hleaf (n : ℕ) : Document.Everywhere IsPlain (.leaf n : Data ℕ) := .intro trivial nofun
  have hkey (s : String) (d : Data ℕ) (hs : text s ≠ [] ∧ openBrace ∉ text s ∧ closeBrace ∉ text s) :
      ∃ k, (Slot.name (text s), d).1 = .name k ∧ k ≠ [] ∧ openBrace ∉ k ∧ closeBrace ∉ k := ⟨_, rfl, hs⟩
  have hglobals : Document.Everywhere IsPlain (.dict globalInputs : Data ℕ) := by
    refine .intro ⟨by decide, List.forall_mem_singleton.mpr (hkey _ _ (by decide))⟩
      (List.forall_mem_singleton.mpr (.intro ⟨by decide, ?_⟩ ?_))
    · exact List.forall_mem_cons.mpr ⟨hkey _ _ (by decide), List.forall_mem_singleton.mpr (hkey _ _ (by decide))⟩
    · exact List.forall_mem_cons.mpr ⟨hleaf _, List.forall_mem_singleton.mpr (hleaf _)⟩
  have hentries : Document.Everywhere IsPlain (.dict limitedCase : Data ℕ) := by
    refine .intro ⟨by decide, List.forall_mem_cons.mpr ⟨hkey _ _ (by decide),
      List.forall_mem_singleton.mpr (hkey _ _ (by decide))⟩⟩
      (List.forall_mem_cons.mpr ⟨hleaf _, List.forall_mem_singleton.mpr (.intro ⟨by decide, ?_⟩ ?_)⟩)
    · exact List.forall_mem_singleton.mpr (hkey _ _ (by decide))
    · exact List.forall_mem_singleton.mpr (hleaf _)
  have hfits : Document.Fits .list (.dict limitedCase) (.dict globalInputs : Data ℕ) := by
    have hleaf (n : ℕ) (b : Data ℕ) : Document.Fits .list (.leaf n) b := .of_children nofun nofun
    refine .of_children (fun _ => trivial) (List.forall_mem_cons.mpr ⟨fun b _ => hleaf 0 b,
      List.forall_mem_singleton.mpr ?_⟩)
    intro b hb
    obtain rfl := Option.some.inj hb
    exact .of_children (fun _ => trivial) (List.forall_mem_singleton.mpr fun b _ => hleaf 5 b)
  obtain ⟨testCase, hcase, hreads, hsilent⟩ :=
    finalizeTestCase_eq_ok asciiBuiltins (List.cons_ne_nil _ _) hglobals hentries hfits
  refine ⟨testCase, hcase, hreads _ _ rfl rfl, (hsilent _ (.cons rfl ?_)).trans rfl⟩
  intro d hd
  obtain rfl := Option.some.inj hd
  exact .cons rfl nofun

end Paths
end PySOA
