import Mathlib.Data.List.TakeWhile
import PySOA.Lib.DelimitedScan
import PySOA.RedisGateway.Constants

/-! The headers of a frame: the pattern of one header and the loop that takes all of them. -/
namespace PySOA

inductive HeaderName
  | contentType
  | chunkCount
  | chunkId
  deriving DecidableEq, Repr

namespace HeaderName

def text : HeaderName → Bytes
  | contentType => ascii "content-type"
  | chunkCount => ascii "chunk-count"
  | chunkId => ascii "chunk-id"

/-- The alternatives of the pattern, in its order. None of them begins another. -/
def matchName (b : Bytes) : Option (HeaderName × Bytes) :=
  (b.dropPrefix? contentType.text).map (contentType, ·) <|>
  (b.dropPrefix? chunkCount.text).map (chunkCount, ·) <|>
  (b.dropPrefix? chunkId.text).map (chunkId, ·)

theorem matchName_eq_some {b r : Bytes} {name : HeaderName} :
    matchName b = some (name, r) ↔ b = name.text ++ r := by
  constructor
  · intro h
    simp only [matchName, Option.orElse_eq_orElse, Option.orElse_eq_or, Option.or_eq_some_iff,
      Option.map_eq_some_iff, dropPrefix?_eq_some, Prod.mk.injEq] at h
    rcases h with ⟨_, h, rfl, rfl⟩ | ⟨_, ⟨_, h, rfl, rfl⟩ | ⟨_, _, h, rfl, rfl⟩⟩ <;> exact h
  · rintro rfl
    have hne : ∀ n : HeaderName, n ≠ name → (name.text ++ r).dropPrefix? n.text = none := by
      intro n hn
      rw [Option.eq_none_iff_forall_ne_some]
      intro r' h'
      rw [dropPrefix?_eq_some] at h'
      -- two different names differ in their first eight bytes
      have h8 := congrArg (List.take 8) h'
      rw [List.take_append_of_le_length (by cases name <;> decide),
        List.take_append_of_le_length (by cases n <;> decide)] at h8
      revert h8 hn
      cases n <;> cases name <;> decide
    have heq : (name.text ++ r).dropPrefix? name.text = some r := dropPrefix?_eq_some.mpr rfl
    cases name with
    | contentType => simp [matchName, heq]
    | chunkCount => simp [matchName, heq, hne contentType (by decide)]
    | chunkId => simp [matchName, heq, hne contentType (by decide), hne chunkCount (by decide)]

end HeaderName

/-- `SUPPORTED_HEADERS_RE.match`: the name and the value of the first header, and what follows
its semicolon. -/
def matchHeader (b : Bytes) : Option ((HeaderName × Bytes) × Bytes) := do
  let (name, b) ← HeaderName.matchName (b.dropWhile Bytes.isSpace)
  let b ← (b.dropWhile Bytes.isSpace).dropPrefix? [58]
  let b := b.dropWhile Bytes.isSpace
  let value := b.takeWhile Bytes.isHeaderValue
  guard (value ≠ [])
  let rest ← ((b.dropWhile Bytes.isHeaderValue).dropWhile Bytes.isSpace).dropPrefix? [59]
  return ((name, value), rest)

/-- The texts of the pattern `\s*name\s*:\s*value\s*;`. -/
def IsHeader (name : HeaderName) (value text : Bytes) : Prop :=
  ∃ w₁ w₂ w₃ w₄ : Bytes, (∀ w ∈ [w₁, w₂, w₃, w₄], ∀ b ∈ w, Bytes.isSpace b = true) ∧
    value ≠ [] ∧ (∀ b ∈ value, Bytes.isHeaderValue b = true) ∧
    text = w₁ ++ name.text ++ w₂ ++ [58] ++ w₃ ++ value ++ w₄ ++ [59]

lemma dropWhile_append_cons {p : UInt8 → Bool} {w : Bytes} {b : UInt8} (r : Bytes)
    (hw : ∀ x ∈ w, p x = true) (hb : p b = false) : (w ++ b :: r).dropWhile p = b :: r := by
  rw [List.dropWhile_append_of_pos hw, List.dropWhile_cons_of_neg (by simp [hb])]

lemma takeWhile_append_cons {p : UInt8 → Bool} {w : Bytes} {b : UInt8} (r : Bytes)
    (hw : ∀ x ∈ w, p x = true) (hb : p b = false) : (w ++ b :: r).takeWhile p = w := by
  rw [List.takeWhile_append_of_pos hw, List.takeWhile_cons_of_neg (by simp [hb]), List.append_nil]

lemma HeaderName.exists_cons (name : HeaderName) :
    ∃ t, name.text = 99 :: t := by
  cases name <;> exact ⟨_, rfl⟩

/-- What is read as a header matches the pattern. -/
lemma isHeader_of_matchHeader {b r : Bytes} {name : HeaderName} {value : Bytes}
    (h : matchHeader b = some ((name, value), r)) : ∃ text, IsHeader name value text ∧ b = text ++ r := by
  simp only [matchHeader, bind, Option.bind_eq_some_iff, guard, Prod.exists] at h
  obtain ⟨n, b₁, hname, b₂, hcolon, h⟩ := h
  rw [HeaderName.matchName_eq_some] at hname
  rw [dropPrefix?_eq_some] at hcolon
  obtain ⟨_, hguard, b₃, hsemi, hout⟩ := h
  rw [dropPrefix?_eq_some] at hsemi
  simp only [pure, Option.some.injEq, Prod.mk.injEq] at hout
  obtain ⟨⟨rfl, rfl⟩, rfl⟩ := hout
  have hne : (b₂.dropWhile Bytes.isSpace).takeWhile Bytes.isHeaderValue ≠ [] := by
    intro h0
    simp [h0] at hguard
  refine ⟨_, ⟨b.takeWhile Bytes.isSpace, b₁.takeWhile Bytes.isSpace, b₂.takeWhile Bytes.isSpace,
    ((b₂.dropWhile Bytes.isSpace).dropWhile Bytes.isHeaderValue).takeWhile Bytes.isSpace, ?_, hne,
    ?_, rfl⟩, ?_⟩
  · intro w hw x hx
    simp only [List.mem_cons, List.not_mem_nil, or_false] at hw
    rcases hw with rfl | rfl | rfl | rfl <;> exact List.mem_takeWhile_imp hx
  · intro x hx
    exact List.mem_takeWhile_imp hx
  · have e₁ : b = b.takeWhile Bytes.isSpace ++ (n.text ++ b₁) := by
      rw [← hname, List.takeWhile_append_dropWhile]
    have e₂ : b₁ = b₁.takeWhile Bytes.isSpace ++ ([58] ++ b₂) := by
      rw [← hcolon, List.takeWhile_append_dropWhile]
    have e₃ := (List.takeWhile_append_dropWhile (p := Bytes.isSpace) (l := b₂)).symm
    have e₄ := (List.takeWhile_append_dropWhile (p := Bytes.isHeaderValue)
      (l := b₂.dropWhile Bytes.isSpace)).symm
    have e₅ : (b₂.dropWhile Bytes.isSpace).dropWhile Bytes.isHeaderValue =
        ((b₂.dropWhile Bytes.isSpace).dropWhile Bytes.isHeaderValue).takeWhile Bytes.isSpace ++
          ([59] ++ b₃) := by
      rw [← hsemi, List.takeWhile_append_dropWhile]
    conv_lhs => rw [e₁, e₂, e₃, e₄, e₅]
    simp only [List.append_assoc]

/-- A text that matches the pattern is read, whatever follows it. -/
lemma matchHeader_append {name : HeaderName} {value text : Bytes} (h : IsHeader name value text)
    (r : Bytes) : matchHeader (text ++ r) = some ((name, value), r) := by
  obtain ⟨w₁, w₂, w₃, w₄, hw, hne, hv, rfl⟩ := h
  have hw₁ := hw w₁ (by simp)
  have hw₂ := hw w₂ (by simp)
  have hw₃ := hw w₃ (by simp)
  have hw₄ := hw w₄ (by simp)
  obtain ⟨t, ht⟩ := name.exists_cons
  obtain ⟨x, v, rfl⟩ := List.exists_cons_of_ne_nil hne
  have hx := Bytes.not_isSpace_of_isHeaderValue (hv x List.mem_cons_self)
  have h₁ : (w₁ ++ name.text ++ w₂ ++ [58] ++ w₃ ++ (x :: v) ++ w₄ ++ [59] ++ r).dropWhile
      Bytes.isSpace = name.text ++ (w₂ ++ 58 :: (w₃ ++ x :: (v ++ (w₄ ++ 59 :: r)))) := by
    rw [ht]
    simpa using dropWhile_append_cons (t ++ (w₂ ++ 58 :: (w₃ ++ x :: (v ++ (w₄ ++ 59 :: r)))))
      hw₁ (show Bytes.isSpace 99 = false by decide)
  have hspace : ∀ y ∈ w₄, Bytes.isHeaderValue y = false := by
    intro y hy
    by_contra hyv
    have := Bytes.not_isSpace_of_isHeaderValue (by simpa using hyv)
    rw [hw₄ y hy] at this
    cases this
  have htake : ((x :: v) ++ (w₄ ++ 59 :: r)).takeWhile Bytes.isHeaderValue = x :: v := by
    cases w₄ with
    | nil => exact takeWhile_append_cons r hv (by decide)
    | cons y w => exact takeWhile_append_cons (w ++ 59 :: r) hv (hspace y List.mem_cons_self)
  have hdrop : ((x :: v) ++ (w₄ ++ 59 :: r)).dropWhile Bytes.isHeaderValue = w₄ ++ 59 :: r := by
    cases w₄ with
    | nil => exact dropWhile_append_cons r hv (by decide)
    | cons y w => exact dropWhile_append_cons (w ++ 59 :: r) hv (hspace y List.mem_cons_self)
  have h₂ := dropWhile_append_cons (w₃ ++ x :: (v ++ (w₄ ++ 59 :: r))) hw₂
    (show Bytes.isSpace 58 = false by decide)
  have h₃ := dropWhile_append_cons (v ++ (w₄ ++ 59 :: r)) hw₃ hx
  have h₄ := dropWhile_append_cons r hw₄ (show Bytes.isSpace 59 = false by decide)
  have hcolon : ∀ s : Bytes, (58 :: s).dropPrefix? [58] = some s :=
    fun s => dropPrefix?_eq_some.mpr rfl
  have hsemi : ∀ s : Bytes, (59 :: s).dropPrefix? [59] = some s :=
    fun s => dropPrefix?_eq_some.mpr rfl
  have hn : HeaderName.matchName (name.text ++ (w₂ ++ 58 :: (w₃ ++ x :: (v ++ (w₄ ++ 59 :: r))))) =
      some (name, w₂ ++ 58 :: (w₃ ++ x :: (v ++ (w₄ ++ 59 :: r)))) :=
    HeaderName.matchName_eq_some.mpr rfl
  simp only [List.cons_append] at htake hdrop
  simp only [matchHeader, h₁, hn, bind, Option.bind_some, h₂, hcolon, h₃, htake, hdrop, h₄, hsemi,
    guard, ne_eq, reduceCtorEq, not_false_eq_true, if_true, pure]

/-- The function takes exactly the texts of the pattern. -/
theorem matchHeader_eq_some {b r : Bytes} {name : HeaderName} {value : Bytes} :
    matchHeader b = some ((name, value), r) ↔ ∃ text, IsHeader name value text ∧ b = text ++ r := by
  constructor
  · exact isHeader_of_matchHeader
  · rintro ⟨text, htext, rfl⟩
    exact matchHeader_append htext r

lemma IsHeader.shape {name : HeaderName} {value text : Bytes} (h : IsHeader name value text) :
    ∃ q, (59 : UInt8) ∉ q ∧ text = q ++ [59] := by
  obtain ⟨w₁, w₂, w₃, w₄, hw, _, hv, rfl⟩ := h
  refine ⟨_, ?_, rfl⟩
  have hspace : ∀ w ∈ [w₁, w₂, w₃, w₄], (59 : UInt8) ∉ w := fun w hmem h59 =>
    absurd (hw w hmem 59 h59) (by decide)
  have hname : (59 : UInt8) ∉ name.text := by cases name <;> decide
  have hvalue : (59 : UInt8) ∉ value := fun h59 => absurd (hv 59 h59) (by decide)
  simp only [List.mem_append, List.mem_singleton, not_or]
  exact ⟨⟨⟨⟨⟨⟨hspace w₁ (by simp), hname⟩, hspace w₂ (by simp)⟩, by decide⟩, hspace w₃ (by simp)⟩,
    hvalue⟩, hspace w₄ (by simp)⟩

/-- One header is a token that ends with its first semicolon. -/
def headerReader : DelimitedScan.Reader UInt8 (HeaderName × Bytes) where
  delimiter := 59
  read := matchHeader
  shape := by
    rintro s ⟨name, value⟩ r h
    obtain ⟨text, htext, rfl⟩ := matchHeader_eq_some.mp h
    obtain ⟨q, hq, rfl⟩ := htext.shape
    refine ⟨q, hq, by simp, fun r' => matchHeader_eq_some.mpr ⟨_, htext, by simp⟩⟩

/-- The headers of a frame; of two with one name the later counts. -/
structure Headers where
  contentType : Option Bytes := none
  chunkCount : Option Bytes := none
  chunkId : Option Bytes := none
  deriving DecidableEq, Repr

namespace Headers

/-- `headers[name] = value`. -/
def set (headers : Headers) : HeaderName × Bytes → Headers
  | (.contentType, value) => { headers with contentType := some value }
  | (.chunkCount, value) => { headers with chunkCount := some value }
  | (.chunkId, value) => { headers with chunkId := some value }

def ofTokens (tokens : List (HeaderName × Bytes)) : Headers := tokens.foldl set {}

end Headers

/-- `_extract_supported_headers`: the loop takes headers as long as one stands in front. -/
def extractSupportedHeaders (serializedMessage : Bytes) : Headers × Bytes :=
  let out := headerReader.scan serializedMessage
  (Headers.ofTokens out.1, out.2)

end PySOA
