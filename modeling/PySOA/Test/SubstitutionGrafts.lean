import PySOA.Lib.DocumentGrafts
import PySOA.Test.Templates

/-! Substituting the variables path by path comes to replacing the leaves of the data, in order, up to the first
one whose variables cannot be substituted. -/
namespace PySOA
open Utf8 (Text CodePoint)
namespace Paths
variable {α : Type} (py : Leaves α) (sources : List (Data α))

/-- What a leaf is replaced by, unless an earlier one has raised an error. -/
def replaceLeaf : Option SubstitutionError → α → Option SubstitutionError × Data α
  | some e, a => (some e, .leaf a)
  | none, a =>
    match substituteValue py sources (.leaf a) with
    | .error e => (some e, .leaf a)
    | .ok value => (none, value.getD (.leaf a))

/-- How the call ends. -/
def raised : Option SubstitutionError → Except SubstitutionError Unit
  | none => .ok ()
  | some e => .error e

/-- A pass of the loop, unless an earlier one has raised an error. -/
def substituteAt (s : Option SubstitutionError × Data α) (p : List (Slot Text)) :
    Option SubstitutionError × Data α :=
  match s.1 with
  | some _ => s
  | none =>
    match substitutePaths py sources [pathText py.toBuiltins p] s.2 with
    | (.ok (), data) => (none, data)
    | (.error e, data) => (some e, data)

variable {py sources}

lemma substitutePaths_cons (path : Text) (paths : List Text) (data : Data α) :
    substitutePaths py sources (path :: paths) data =
      match substitutePaths py sources [path] data with
      | (.ok (), data) => substitutePaths py sources paths data
      | (.error e, data) => (.error e, data) := by
  simp only [substitutePaths]
  cases pathGet py.toBuiltins data path with
  | error e =>
    dsimp only
    split_ifs
    · rfl
    · rfl
  | ok value =>
    dsimp only
    cases substituteValue py sources value with
    | error e => rfl
    | ok value =>
      cases value with
      | none => rfl
      | some value =>
        dsimp only
        cases pathPut py.toBuiltins data path value with
        | error e => rfl
        | ok data => rfl

variable (py sources) in
lemma foldl_substituteAt_some (e : SubstitutionError) (data : Data α) (ps : List (List (Slot Text))) :
    ps.foldl (substituteAt py sources) (some e, data) = (some e, data) := by
  induction ps with
  | nil => rfl
  | cons p ps ih => exact ih

lemma substitutePaths_eq_foldl (ps : List (List (Slot Text))) (data : Data α) :
    substitutePaths py sources (ps.map (pathText py.toBuiltins)) data =
      Prod.map raised id (ps.foldl (substituteAt py sources) (none, data)) := by
  induction ps generalizing data with
  | nil => rfl
  | cons p ps ih =>
    rw [List.map_cons, substitutePaths_cons, List.foldl_cons]
    unfold substituteAt
    dsimp only
    cases substitutePaths py sources [pathText py.toBuiltins p] data with
    | mk result data =>
      cases result with
      | ok u => exact ih data
      | error e =>
        have hsame := foldl_substituteAt_some py sources e data ps
        unfold substituteAt at hsame
        dsimp only
        rw [hsame]
        rfl

lemma substitutePaths_single {data value : Data α} {path : Text} (h : pathGet py.toBuiltins data path = .ok value) :
    substitutePaths py sources [path] data =
      match substituteValue py sources value with
      | .error e => (.error e, data)
      | .ok none => (.ok (), data)
      | .ok (some value) =>
        match pathPut py.toBuiltins data path value with
        | .error e => (.error (.error e), data)
        | .ok data => (.ok (), data) := by
  rw [substitutePaths, h]
  rfl

/-- At the path of a leaf, a pass puts in its place what it is replaced by. -/
lemma grafts_substituteAt {p : List (Slot Text)} (hne : p ≠ []) (hp : ∀ s ∈ p, IsPlainSlot s) (a : α) :
    Document.Grafts (replaceLeaf py sources) .list (substituteAt py sources) p a := by
  intro error out out' hget hput
  have hvalue : pathGet py.toBuiltins out (pathText py.toBuiltins p) = .ok (.leaf a) :=
    pathGet_pathText hp hne hget
  unfold substituteAt
  cases error with
  | some e => rw [Document.put?_of_get? hget hput, replaceLeaf]
  | none =>
    dsimp only
    rw [substitutePaths_single hvalue]
    rw [replaceLeaf] at hput ⊢
    cases hsubstituted : substituteValue py sources (.leaf a) with
    | error e =>
      rw [hsubstituted] at hput
      dsimp only at hput ⊢
      rw [Document.put?_of_get? hget hput]
    | ok value =>
      rw [hsubstituted] at hput
      cases value with
      | none =>
        dsimp only [Option.getD_none] at hput ⊢
        rw [Document.put?_of_get? hget hput]
      | some value =>
        dsimp only [Option.getD_some] at hput ⊢
        rw [pathPut_pathText hp hne hput]

/-- The paths of a dict or a list are those of its leaves. -/
lemma getAllPaths_root {d : Data α} (hd : d.Everywhere IsPlain) (hroot : ∀ a, d ≠ .leaf a) (b : Builtins α) :
    getAllPaths b [] false d = (d.tips false).map fun tip => pathText b tip.1 := by
  obtain ⟨hplain, hbelow⟩ := hd
  have hentries : getAllPaths b [] false d = getEntryPaths b (pathText b []) false d.children := by
    cases d with
    | leaf a => exact absurd rfl (hroot a)
    | dict entries => rw [getAllPaths, pathText, Document.children]; rfl
    | seq kind items => rw [getAllPaths, pathText, Document.children, getItemPaths_eq]; rfl
  have htip : ¬d.isTip false = true := by
    cases d with
    | leaf a => exact absurd rfl (hroot a)
    | dict entries => exact Bool.false_ne_true
    | seq kind items => exact Bool.false_ne_true
  rw [hentries, Document.tips_eq, if_neg htip]
  apply getEntryPaths_eq (fun s hs => absurd hs List.not_mem_nil)
  intro child hchild
  have hslots : ∀ s ∈ [child.1], IsPlainSlot s := by
    intro s hs
    rw [List.mem_singleton.mp hs]
    exact hplain.isPlainSlot hchild
  exact getAllPaths_pathText (hbelow child hchild) hslots (List.cons_ne_nil _ _) false

/-- Substituting the variables in a dict or a list of dicts and lists from other sources, which stay as they are
meanwhile, comes to replacing its leaves from the first to the last, up to one whose variables cannot be
substituted. The dicts and lists keep their keys and lengths, and what is put in the place of a leaf, a dict or a
list perhaps, is not searched for variables again. -/
theorem substituteVariables_eq_graft {d : Data α} (hd : d.Everywhere IsPlain) (hroot : ∀ a, d ≠ .leaf a) :
    substituteVariables py d sources =
      Prod.map raised id (Document.graft (replaceLeaf py sources) none d) := by
  have hgraft : ((d.tips false).map Prod.fst).foldl (substituteAt py sources) (none, d) =
      Document.graft (replaceLeaf py sources) none d := by
    apply Document.foldl_tips_eq_graft (hd.mono IsPlain.regular)
    intro tip htip a ha
    obtain ⟨hget, -⟩ := (Document.mem_tips (hd.mono IsPlain.named)).mp htip
    apply grafts_substituteAt _ (isPlainSlot_of_get? hd hget)
    intro hnil
    rw [hnil] at hget
    exact hroot a ((Option.some.inj hget).trans ha)
  rw [substituteVariables, getAllPaths_root hd hroot, ← hgraft, ← substitutePaths_eq_foldl, List.map_map]
  rfl

/-- The size as the only one of the texts in a list. -/
def sizeData : Data (Text ⊕ ℕ) :=
  .dict [(.name (text "sizes"), .seq .list [.leaf (.inr 3), .leaf (.inl (text "[[size]]"))])]

lemma isPlain_sizeData : sizeData.Everywhere IsPlain := by
  have hleaf (a : Text ⊕ ℕ) : Document.Everywhere IsPlain (.leaf a : Data (Text ⊕ ℕ)) := .intro trivial nofun
  have hlist : Document.Everywhere IsPlain
      (.seq .list [.leaf (.inr 3), .leaf (.inl (text "[[size]]"))] : Data (Text ⊕ ℕ)) :=
    .intro rfl (List.forall_mem_cons.mpr ⟨hleaf _, List.forall_mem_singleton.mpr (hleaf _)⟩)
  exact .intro ⟨by decide, List.forall_mem_singleton.mpr ⟨_, rfl, by decide⟩⟩ (List.forall_mem_singleton.mpr hlist)

theorem substituteVariables_eq_graft_sizeData : substituteVariables plainLeaves sizeData [sizes] =
    (.ok (), .dict [(.name (text "sizes"), .seq .list [.leaf (.inr 3), .leaf (.inr 12)])]) := by
  have hvalue : substituteValue plainLeaves [sizes] (.leaf (.inl (text "[[size]]"))) =
      .ok (some (.leaf (.inr 12))) := by
    have hpath : ∀ c ∈ text "size", isPathChar c = true := List.all_eq_true.mp rfl
    have hsingle := substituteValue_bracketed plainLeaves [sizes] hpath
    rw [valueFor_sizeTemplate (text "size") (by decide)] at hsingle
    exact hsingle
  have hleaf : replaceLeaf plainLeaves [sizes] none (.inl (text "[[size]]")) = (none, .leaf (.inr 12)) := by
    rw [replaceLeaf, hvalue]
    rfl
  have hnumber : replaceLeaf plainLeaves [sizes] none (.inr 3) = (none, .leaf (.inr 3)) := rfl
  rw [substituteVariables_eq_graft isPlain_sizeData nofun]
  simp only [sizeData, Document.graft, Document.graftEntries, Document.graftItems, hnumber, hleaf]
  rfl

end Paths
end PySOA
