import PySOA.Lib.DocumentEquality
import PySOA.Lib.DocumentGrafts

/-! Documents laid over others. What the upper one has at its tips is what there is, and the lower one shows
where the upper one is silent. Putting the tips of the upper one, in order, comes to the same. -/
namespace Document
variable {τ σ α : Type*} [DecidableEq τ]

mutual
/-- The document laid over another one, with mappings and sequences laid over their like. -/
def overlay : Document τ σ α → Document τ σ α → Document τ σ α
  | leaf a, _ => leaf a
  | dict entries, base =>
    match base with
    | dict below => if entries.isEmpty then dict [] else dict (overlayEntries entries below)
    | _ => dict entries
  | seq kind items, base =>
    match base with
    | seq _ below => if items.isEmpty then seq kind [] else seq kind (overlayItems items below)
    | _ => seq kind items

def overlayEntries :
    List (Slot τ × Document τ σ α) → List (Slot τ × Document τ σ α) → List (Slot τ × Document τ σ α)
  | [], below => below
  | (s, d) :: entries, below => overlayEntries entries (Assoc.upsert s (fun old => old.elim d (overlay d)) below)

def overlayItems : List (Document τ σ α) → List (Document τ σ α) → List (Document τ σ α)
  | [], below => below
  | d :: items, [] => d :: items
  | d :: items, d' :: below => overlay d d' :: overlayItems items below
end

/-- Both are mappings, or both are sequences of the kind that grows. -/
def Alike (grows : σ) : Document τ σ α → Document τ σ α → Prop
  | dict _, dict _ => True
  | seq kind _, seq kind' _ => kind = grows ∧ kind' = grows
  | _, _ => False

/-- Wherever the upper document goes on, the lower one has nothing or something alike. -/
def Fits (grows : σ) (top base : Document τ σ α) : Prop :=
  ∀ p t b, top.get? p = some t → t.isTip true = false → base.get? p = some b → Alike grows t b

variable {grows : σ}

lemma Fits.child {top base d b : Document τ σ α} {s : Slot τ} (h : Fits grows top base)
    (htop : Assoc.get? s top.children = some d) (hbase : Assoc.get? s base.children = some b) : Fits grows d b := by
  intro p t b' ht htip hb
  apply h (s :: p) t b' _ htip
  · rw [get?, hbase]
    exact hb
  · rw [get?, htop]
    exact ht

/-- A document fits if it ends here or is alike, and its children fit. -/
lemma Fits.of_children {top base : Document τ σ α} (halike : top.isTip true = false → Alike grows top base)
    (hchildren : ∀ child ∈ top.children, ∀ b, Assoc.get? child.1 base.children = some b → Fits grows child.2 b) :
    Fits grows top base := by
  intro p t b ht htip hb
  cases p with
  | nil =>
    obtain rfl := Option.some.inj ht
    obtain rfl := Option.some.inj hb
    exact halike htip
  | cons s p =>
    obtain ⟨d, hd, ht⟩ := Option.bind_eq_some_iff.mp ht
    obtain ⟨d', hd', hb⟩ := Option.bind_eq_some_iff.mp hb
    exact hchildren _ (Assoc.mem_of_get? hd) d' hd' p t b ht htip hb

lemma overlay_of_isTip {top : Document τ σ α} (h : top.isTip true = true) (base : Document τ σ α) :
    overlay top base = top := by
  have hempty := children_of_isTip h
  cases top with
  | leaf a => rw [overlay]
  | dict entries =>
    obtain rfl : entries = [] := hempty
    cases base <;> rfl
  | seq kind items =>
    cases items with
    | nil => cases base <;> rfl
    | cons d items => cases hempty

/-- The child at a slot, from those above and below. -/
def overlayChild (above below : Option (Document τ σ α)) : Option (Document τ σ α) :=
  match above, below with
  | none, below => below
  | some d, none => some d
  | some d, some d' => some (overlay d d')

lemma get?_overlayEntries {entries : List (Slot τ × Document τ σ α)} (hnodup : (entries.map Prod.fst).Nodup)
    (below : List (Slot τ × Document τ σ α)) (s : Slot τ) :
    Assoc.get? s (overlayEntries entries below) = overlayChild (Assoc.get? s entries) (Assoc.get? s below) := by
  induction entries generalizing below with
  | nil =>
    rw [overlayEntries]
    rfl
  | cons entry entries ih =>
    obtain ⟨s', d⟩ := entry
    rw [List.map_cons, List.nodup_cons] at hnodup
    rw [overlayEntries, ih hnodup.2, Assoc.get?_cons]
    by_cases hs : s' = s
    · obtain rfl := hs
      rw [if_pos rfl, Assoc.get?_of_notMem hnodup.1, Assoc.get?_upsert_self]
      cases Assoc.get? s' below with
      | none => rfl
      | some d' => rfl
    · rw [if_neg hs, Assoc.get?_upsert_of_ne (Ne.symm hs)]

lemma getElem?_overlayItems (items below : List (Document τ σ α)) (j : ℕ) :
    (overlayItems items below)[j]? = overlayChild items[j]? below[j]? := by
  induction items generalizing below j with
  | nil =>
    rw [overlayItems]
    rfl
  | cons d items ih =>
    cases below with
    | nil =>
      rw [overlayItems, List.getElem?_nil]
      cases (d :: items)[j]? with
      | none => rfl
      | some d => rfl
    | cons d' below =>
      rw [overlayItems]
      cases j with
      | zero => rfl
      | succ j => exact ih below j

lemma get?_name_indexed (t : τ) (i : ℕ) (items : List (Document τ σ α)) :
    Assoc.get? (.name t) (indexed i items) = none := by
  induction items generalizing i with
  | nil => rfl
  | cons d items ih =>
    have hne : (Slot.index i : Slot τ) ≠ .name t := by
      intro h
      cases h
    rw [indexed, Assoc.get?_cons, if_neg hne, ih]

/-- Where the upper document goes on, its children are laid over those of the lower one. -/
lemma get?_children_overlay {top base : Document τ σ α} (hnamed : top.Named) (htip : top.isTip true = false)
    (halike : Alike grows top base) (s : Slot τ) :
    Assoc.get? s (overlay top base).children =
      overlayChild (Assoc.get? s top.children) (Assoc.get? s base.children) := by
  cases top with
  | leaf a => cases htip
  | dict entries =>
    cases base with
    | leaf a => exact halike.elim
    | seq kind below => exact halike.elim
    | dict below =>
      have hempty : ¬entries.isEmpty = true := by
        intro h
        rw [isTip, h] at htip
        cases htip
      rw [overlay, if_neg hempty]
      exact get?_overlayEntries hnamed below s
  | seq kind items =>
    cases base with
    | leaf a => exact halike.elim
    | dict below => exact halike.elim
    | seq kind' below =>
      have hempty : ¬items.isEmpty = true := by
        intro h
        rw [isTip, h] at htip
        cases htip
      rw [overlay, if_neg hempty, children, children, children]
      cases s with
      | name t => rw [get?_name_indexed, get?_name_indexed, get?_name_indexed]; rfl
      | index j =>
        rw [get?_indexed, get?_indexed, get?_indexed, getElem?_overlayItems]

/-- The upper document has neither anything at the path nor a tip on the way there. -/
def Silent (top : Document τ σ α) (p : List (Slot τ)) : Prop :=
  top.get? p = none ∧ ∀ q, q <+: p → ∀ t, top.get? q = some t → t.isTip true = false

/-- A document that goes on is silent if the child at the first slot is, when there is one. -/
lemma Silent.cons {top : Document τ σ α} {s : Slot τ} {p : List (Slot τ)} (htip : top.isTip true = false)
    (h : ∀ d, Assoc.get? s top.children = some d → Silent d p) : Silent top (s :: p) := by
  constructor
  · rw [get?]
    cases hd : Assoc.get? s top.children with
    | none => rfl
    | some d => exact (h d hd).1
  · intro q hq t ht
    cases q with
    | nil =>
      obtain rfl := Option.some.inj ht
      exact htip
    | cons s' q =>
      obtain ⟨rfl, hbelow⟩ := List.cons_prefix_cons.mp hq
      obtain ⟨d, hd, ht⟩ := Option.bind_eq_some_iff.mp ht
      exact (h d hd).2 q hbelow t ht

lemma Silent.child {top d : Document τ σ α} {s : Slot τ} {p : List (Slot τ)} (h : Silent top (s :: p))
    (hd : Assoc.get? s top.children = some d) : Silent d p := by
  obtain ⟨hnone, htips⟩ := h
  rw [get?, hd] at hnone
  refine ⟨hnone, ?_⟩
  intro q hq t ht
  apply htips (s :: q) (List.cons_prefix_cons.mpr ⟨rfl, hq⟩) t
  rw [get?, hd]
  exact ht

/-- What the upper document has at a tip is there. -/
theorem get?_overlay_of_isTip {top base v : Document τ σ α} (htop : Everywhere Named top)
    (hfits : Fits grows top base) {p : List (Slot τ)} (hget : top.get? p = some v) (hv : v.isTip true = true) :
    (overlay top base).get? p = some v := by
  induction p generalizing top base with
  | nil =>
    obtain rfl := Option.some.inj hget
    rw [overlay_of_isTip hv]
    exact hget
  | cons s p ih =>
    obtain ⟨d, hd, hget⟩ := Option.bind_eq_some_iff.mp hget
    obtain ⟨hnamed, hbelow⟩ := htop
    have htip : top.isTip true = false := by
      by_contra h
      rw [children_of_isTip (Bool.not_eq_false _ ▸ h)] at hd
      cases hd
    rw [get?, get?_children_overlay hnamed htip (hfits [] top base rfl htip rfl), hd]
    cases hbase : Assoc.get? s base.children with
    | none => exact hget
    | some b => exact ih (hbelow _ (Assoc.mem_of_get? hd)) (hfits.child hd hbase) hget

/-- Where the upper document is silent, the lower one shows. -/
theorem get?_overlay_of_silent {top base : Document τ σ α} (htop : Everywhere Named top)
    (hfits : Fits grows top base) {p : List (Slot τ)} (hsilent : Silent top p) :
    (overlay top base).get? p = base.get? p := by
  induction p generalizing top base with
  | nil => cases hsilent.1
  | cons s p ih =>
    obtain ⟨hnamed, hbelow⟩ := htop
    have htip := hsilent.2 [] List.nil_prefix top rfl
    rw [get?, get?_children_overlay hnamed htip (hfits [] top base rfl htip rfl)]
    cases hd : Assoc.get? s top.children with
    | none => rfl
    | some d =>
      have hchild := hsilent.child hd
      rw [get?]
      cases hbase : Assoc.get? s base.children with
      | none => exact hchild.1
      | some b => exact ih (hbelow _ (Assoc.mem_of_get? hd)) (hfits.child hd hbase) hchild

section put
variable [DecidableEq σ]

/-- Putting values into what is in a hole leaves all around it as it is. -/
lemma Hole.putAll {p : List (Slot τ)} {plug : Document τ σ α → Document τ σ α} (h : Hole grows p plug)
    (l : List (List (Slot τ) × Document τ σ α)) (d : Document τ σ α) :
    Document.putAll grows (plug d) (l.map (Prod.map (p ++ ·) id)) = (Document.putAll grows d l).map plug := by
  induction l generalizing d with
  | nil => rfl
  | cons tip l ih =>
    rw [List.map_cons, putAll_cons, putAll_cons, Prod.map_fst, Prod.map_snd, id, h.put, Option.bind_map,
      Option.map_bind]
    congr 1
    funext d'
    exact ih d'

/-- Whatever it is laid over, if it fits, putting the tips of the document comes to laying it over. -/
def Overlaid (grows : σ) (top : Document τ σ α) : Prop :=
  ∀ base : Document τ σ α, Everywhere (Regular grows) base → Fits grows top base →
    putAll grows base (tips true top) = some (overlay top base)

/-- The first step of laying a mapping over another one: the tips below one of its slots. -/
lemma putAll_slot {below : List (Slot τ × Document τ σ α)} (hbelow : Regular grows (dict below : Document τ σ α))
    {s : Slot τ} {d : Document τ σ α} (hrebuilt : Rebuilt grows d) (hoverlaid : Overlaid grows d)
    (hfits : ∀ b, Assoc.get? s below = some b → Everywhere (Regular grows) b ∧ Fits grows d b) :
    putAll grows (dict below) ((tips true d).map (Prod.map (s :: ·) id)) =
      some (dict (Assoc.upsert s (fun old => old.elim d (overlay d)) below)) := by
  cases hget : Assoc.get? s below with
  | none =>
    have hfresh : s ∉ below.map Prod.fst := by
      intro hmem
      obtain ⟨b, hb⟩ := Assoc.mem_keys_iff.mp hmem
      rw [hget] at hb
      cases hb
    obtain ⟨tip, l, htips, hput⟩ := hrebuilt
    have hfresh' : Fresh grows s (dict below : Document τ σ α) := hfresh
    rw [htips, putAll_fresh hfresh', hput, Assoc.upsert_of_notMem hfresh]
    rfl
  | some b =>
    obtain ⟨hregular, hfit⟩ := hfits b hget
    obtain ⟨done, todo, rfl⟩ := List.append_of_mem (Assoc.mem_of_get? hget)
    have hnew : s ∉ done.map Prod.fst := by
      have hnodup := hbelow.1
      rw [List.map_append, List.nodup_append] at hnodup
      intro hmem
      exact hnodup.2.2 s hmem s List.mem_cons_self rfl
    have hhole := (Hole.child (d := dict (done ++ (s, b) :: todo)) hbelow rfl).putAll (tips true d) b
    rw [hoverlaid b hregular hfit] at hhole
    rw [Assoc.upsert_append_of_notMem hnew, Assoc.upsert, if_pos rfl]
    exact hhole

lemma putAll_overlayEntries {entries below : List (Slot τ × Document τ σ α)}
    (hentries : Regular grows (dict entries : Document τ σ α))
    (hbelow : Regular grows (dict below : Document τ σ α))
    (hchildren : ∀ child ∈ entries, Rebuilt grows child.2 ∧ Overlaid grows child.2)
    (hfits : ∀ child ∈ entries, ∀ b, Assoc.get? child.1 below = some b →
      Everywhere (Regular grows) b ∧ Fits grows child.2 b) :
    putAll grows (dict below) (entryTips true entries) = some (dict (overlayEntries entries below)) := by
  induction entries generalizing below with
  | nil =>
    rw [entryTips, overlayEntries]
    rfl
  | cons entry entries ih =>
    obtain ⟨s, d⟩ := entry
    obtain ⟨hrebuilt, hoverlaid⟩ := hchildren (s, d) List.mem_cons_self
    obtain ⟨hnodup, hnames⟩ := hentries
    rw [List.map_cons, List.nodup_cons] at hnodup
    rw [entryTips, putAll_append, putAll_slot hbelow hrebuilt hoverlaid (hfits (s, d) List.mem_cons_self),
      Option.bind_some, overlayEntries]
    apply ih ⟨hnodup.2, fun entry hentry => hnames entry (List.mem_cons_of_mem _ hentry)⟩ _
      (fun child hchild => hchildren child (List.mem_cons_of_mem _ hchild))
    · intro child hchild b hb
      have hne : child.1 ≠ s := fun heq => hnodup.1 (List.mem_map.mpr ⟨child, hchild, heq⟩)
      rw [Assoc.get?_upsert_of_ne hne] at hb
      exact hfits child (List.mem_cons_of_mem _ hchild) b hb
    · refine ⟨Assoc.nodup_upsert hbelow.1, ?_⟩
      intro entry hentry
      rcases Assoc.mem_upsert hentry with hentry | rfl | ⟨b, -, rfl⟩
      · exact hbelow.2 entry hentry
      · exact hnames (s, d) List.mem_cons_self
      · exact hnames (s, d) List.mem_cons_self

/-- Laying a sequence over what a sequence has from one place on. -/
lemma putAll_overlayItems (done : List (Document τ σ α)) {items below : List (Document τ σ α)}
    (hchildren : ∀ child ∈ indexed (τ := τ) done.length items, Rebuilt grows child.2 ∧ Overlaid grows child.2)
    (hfits : ∀ (j : ℕ) (d b : Document τ σ α), items[j]? = some d → below[j]? = some b →
      Everywhere (Regular grows) b ∧ Fits grows d b) :
    putAll grows (seq grows (done ++ below)) (entryTips true (indexed done.length items)) =
      some (seq grows (done ++ overlayItems items below)) := by
  induction items generalizing below done with
  | nil =>
    rw [indexed, entryTips, overlayItems]
    rfl
  | cons d items ih =>
    cases below with
    | nil =>
      have hall := putAll_entryTips (fun child hchild => (hchildren child hchild).1)
        (freshAll_seq done (d :: items))
      rw [addChildren_seq] at hall
      rw [List.append_nil, overlayItems]
      exact hall
    | cons b below =>
      obtain ⟨hregular, hfit⟩ := hfits 0 d b rfl rfl
      obtain ⟨-, hoverlaid⟩ := hchildren (.index done.length, d) List.mem_cons_self
      have hkeys : (seq grows (done ++ b :: below) : Document τ σ α).children.map Prod.fst =
          (indexed 0 done ++ (.index done.length, b) :: indexed (done.length+1) below).map Prod.fst := by
        rw [children, indexed_append, Nat.zero_add]
        rfl
      have hplug (v : Document τ σ α) : (seq grows (done ++ b :: below) : Document τ σ α).withChildren
          (indexed 0 done ++ (.index done.length, v) :: indexed (done.length+1) below) =
            seq grows (done ++ v :: below) := by
        rw [withChildren, List.map_append, List.map_cons, map_snd_indexed, map_snd_indexed]
      have hseq : Regular grows (seq grows (done ++ b :: below) : Document τ σ α) := rfl
      have hchild : Hole grows [.index done.length] fun v => (seq grows (done ++ b :: below)).withChildren
          (indexed 0 done ++ (.index done.length, v) :: indexed (done.length+1) below) := Hole.child hseq hkeys
      have hhole := hchild.putAll (tips true d) b
      rw [hoverlaid b hregular hfit, Option.map_some, hplug, hplug] at hhole
      have hlength : (done ++ [overlay d b]).length = done.length + 1 := by
        rw [List.length_append, List.length_singleton]
      have hrest := ih (done ++ [overlay d b])
        (fun child hchild => hchildren child (List.mem_cons_of_mem _ (hlength ▸ hchild)))
        (fun j d b (hd : items[j]? = some d) (hb : below[j]? = some b) => hfits (j+1) d b hd hb)
      rw [hlength, List.append_assoc, List.append_assoc] at hrest
      rw [indexed, entryTips, putAll_append, overlayItems]
      exact (congrArg (Option.bind · _) hhole).trans hrest

/-- Putting the tips of a document into one that it fits over, in order, comes to laying it over. -/
theorem overlaid {top : Document τ σ α} (htop : Everywhere (Regular grows) top) : Overlaid grows top := by
  induction top using of_children with
  | h top ih =>
    obtain ⟨hregular, hbelow⟩ := htop
    intro base hbase hfits
    have hchildren : ∀ child ∈ top.children, Rebuilt grows child.2 ∧ Overlaid grows child.2 :=
      fun child hchild => ⟨rebuilt (hbelow child hchild), ih child hchild (hbelow child hchild)⟩
    have hbelow' (child : Slot τ × Document τ σ α) (b : Document τ σ α) (hchild : child ∈ top.children)
        (hb : Assoc.get? child.1 base.children = some b) :
        Everywhere (Regular grows) b ∧ Fits grows child.2 b := by
      obtain ⟨-, hbelow⟩ := hbase
      exact ⟨hbelow _ (Assoc.mem_of_get? hb), hfits.child (Assoc.get?_of_mem hregular.named hchild) hb⟩
    by_cases htip : top.isTip true = true
    · rw [tips_eq, if_pos htip, overlay_of_isTip htip]
      rfl
    · have halike := hfits [] top base rfl (Bool.not_eq_true _ ▸ htip) rfl
      rw [tips_eq, if_neg htip]
      cases top with
      | leaf a => exact absurd rfl htip
      | dict entries =>
        cases base with
        | leaf a => exact halike.elim
        | seq kind below => exact halike.elim
        | dict below =>
          have hempty : ¬entries.isEmpty = true := htip
          obtain ⟨hregular', -⟩ := hbase
          rw [overlay, if_neg hempty]
          exact putAll_overlayEntries hregular hregular' hchildren fun child hchild b hb => hbelow' child b hchild hb
      | seq kind items =>
        cases base with
        | leaf a => exact halike.elim
        | dict below => exact halike.elim
        | seq kind' below =>
          have hempty : ¬items.isEmpty = true := htip
          obtain ⟨rfl, rfl⟩ := halike
          rw [overlay, if_neg hempty]
          apply putAll_overlayItems [] hchildren
          intro j d b hd hb
          rw [← get?_indexed] at hd hb
          exact hbelow' (.index j, d) b (Assoc.mem_of_get? hd) hb

end put
end Document
