import PySOA.Common.Errors

/-! The censored copies of dicts that go into the logs. -/
namespace PySOA

/-- A value without parts; an `object` is equal to no other one. -/
inductive Leaf
  | none
  | bool (b : Bool)
  | int (n : ℤ)
  | float (q : ℚ)
  | text (s : String)
  | bytes (b : Bytes)
  | object (id : ℕ) (truthy : Bool)
  deriving DecidableEq

inductive SequenceType
  | list
  | tuple
  deriving DecidableEq

/-- A value that is logged. The items of a set are in the order of its iteration. -/
inductive Logged
  | leaf (l : Leaf)
  | sequence (type : SequenceType) (items : List Logged)
  | set (frozen : Bool) (items : List Logged)
  | dict (entries : List (Key × Logged))

namespace Leaf

def truthy : Leaf → Bool
  | none => false
  | bool b => b
  | int n => n ≠ 0
  | float q => q ≠ 0
  | text s => s ≠ ""
  | bytes b => b ≠ []
  | object _ truthy => truthy

def number? : Leaf → Option ℚ
  | bool b => some (if b then 1 else 0)
  | int n => some n
  | float q => some q
  | _ => Option.none

/-- `v == w`. -/
def same (v w : Leaf) : Bool :=
  match v.number?, w.number? with
  | some p, some q => p = q
  | _, _ => v = w

/-- `isinstance(v, bool)`. -/
def isBool : Leaf → Bool
  | bool _ => true
  | _ => false

/-- `isinstance(v, CENSOR_TYPES)`; booleans are integers. -/
def isCensorType : Leaf → Bool
  | text _ | int _ | bool _ => true
  | _ => false

/-- The value is secret under a sensitive key: it is a truthy string or non-boolean integer. -/
def secret (sensitive : Bool) : Leaf → Bool
  | text s => sensitive && s ≠ ""
  | int n => sensitive && n ≠ 0
  | _ => false

end Leaf

namespace Logged

mutual
/-- `v == w` for values that can be hashed, which are those that can be in a set. -/
def same : Logged → Logged → Bool
  | .leaf l, .leaf l' => l.same l'
  | .sequence type items, .sequence type' items' => type = type' && sameAll items items'
  | .set _ items, .set _ items' => within items items' && items'.all (isIn items)
  | _, _ => false

def sameAll : List Logged → List Logged → Bool
  | [], [] => true
  | v :: items, w :: items' => same v w && sameAll items items'
  | _, _ => false

def within : List Logged → List Logged → Bool
  | [], _ => true
  | v :: items, items' => items'.any (same v) && within items items'

def isIn : List Logged → Logged → Bool
  | [], _ => false
  | v :: items, w => same v w || isIn items w
end

/-- The set of the given items: an item that is equal to an earlier one is left out. -/
def setOf (items : List Logged) : List Logged :=
  items.foldl (fun found v => if found.any (same · v) then found else found ++ [v]) []

end Logged

namespace RecursivelyCensoredDictWrapper

def sensitiveFields : List String :=
  ["password", "pass", "passwd", "passphrase", "pass_phrase", "pass-phrase", "passPhrase",
    "passwords", "passwds", "passphrases", "pass_phrases", "pass-phrases", "passPhrases", "private",
    "private_key", "private-key", "privateKey", "privates", "private_keys", "private-keys",
    "privateKeys", "secret", "secret_key", "secret-key", "secretKey", "secrets", "secret_keys",
    "secret-keys", "secretKeys", "security_code", "security-code", "securityCode", "security_codes",
    "security-codes", "securityCodes", "auth", "token", "auth_token", "auth-token", "authToken",
    "authorization", "authorization_token", "authorization-token", "authorizationToken",
    "authentication", "authentication_token", "authentication-token", "authenticationToken",
    "credit_card", "credit-card", "creditCard", "credit_card_number", "credit-card-number",
    "creditCardNumber", "card_number", "card-number", "cardNumber", "cc_number", "cc-number",
    "ccNumber", "ccn", "credit_cards", "credit-cards", "creditCards", "credit_card_numbers",
    "credit-card-numbers", "creditCardNumbers", "card_numbers", "card-numbers", "cardNumbers",
    "cc_numbers", "cc-numbers", "ccNumbers", "ccns", "cid", "csc", "csn", "cvc", "cvc2", "cvd",
    "cve", "cvn2", "cvv", "cvv2", "icvv", "cids", "cscs", "csns", "cvcs", "cvc2s", "cvds", "cves",
    "cvn2s", "cvvs", "cvv2s", "icvvs", "card_id", "card-id", "cardId", "card_identification",
    "card-identification", "cardIdentification", "card_ids", "card-ids", "cardIds",
    "card_identifications", "card-identifications", "cardIdentifications",
    "card_identification_code", "card-identification-code", "cardIdentificationCode",
    "card_identification_codes", "card-identification-codes", "cardIdentificationCodes",
    "card_identification_number", "card-identification-number", "cardIdentificationNumber",
    "card_identification_numbers", "card-identification-numbers", "cardIdentificationNumbers",
    "card_identification_value", "card-identification-value", "cardIdentificationValue",
    "card_identification_values", "card-identification-values", "cardIdentificationValues",
    "card_security", "card-security", "cardSecurity", "card_securities", "card-securities",
    "cardSecurities", "card_security_code", "card-security-code", "cardSecurityCode",
    "card_security_codes", "card-security-codes", "cardSecurityCodes", "card_security_number",
    "card-security-number", "cardSecurityNumber", "card_security_numbers", "card-security-numbers",
    "cardSecurityNumbers", "card_security_value", "card-security-value", "cardSecurityValue",
    "card_security_values", "card-security-values", "cardSecurityValues", "card_validation",
    "card-validation", "cardValidation", "card_validations", "card-validations", "cardValidations",
    "card_validation_code", "card-validation-code", "cardValidationCode", "card_validation_codes",
    "card-validation-codes", "cardValidationCodes", "card_validation_number",
    "card-validation-number", "cardValidationNumber", "card_validation_numbers",
    "card-validation-numbers", "cardValidationNumbers", "card_validation_value",
    "card-validation-value", "cardValidationValue", "card_validation_values",
    "card-validation-values", "cardValidationValues", "card_verification", "card-verification",
    "cardVerification", "card_verifications", "card-verifications", "cardVerifications",
    "card_verification_code", "card-verification-code", "cardVerificationCode",
    "card_verification_codes", "card-verification-codes", "cardVerificationCodes",
    "card_verification_number", "card-verification-number", "cardVerificationNumber",
    "card_verification_numbers", "card-verification-numbers", "cardVerificationNumbers",
    "card_verification_value", "card-verification-value", "cardVerificationValue",
    "card_verification_values", "card-verification-values", "cardVerificationValues",
    "account_number", "account-number", "accountNumber", "account_numbers", "account-numbers",
    "accountNumbers", "bank_account", "bank-account", "bankAccount", "bank_accounts",
    "bank-accounts", "bankAccounts", "bank_account_number", "bank-account-number",
    "bankAccountNumber", "bank_account_numbers", "bank-account-numbers", "bankAccountNumbers",
    "pin", "pin_code", "pin-code", "pinCode", "pin_number", "pin-number", "pinNumber", "pins",
    "pin_codes", "pin-codes", "pinCodes", "pin_numbers", "pin-numbers", "pinNumbers",
    "personal_id_number", "personal-id-number", "personalIdNumber", "personal_id_numbers",
    "personal-id-numbers", "personalIdNumbers", "personal_identification_number",
    "personal-identification-number", "personalIdentificationNumber",
    "personal_identification_numbers", "personal-identification-numbers",
    "personalIdentificationNumbers"]

def censoredString : String := "**********"

/-- `k in cls.SENSITIVE_FIELDS`. -/
def isSensitive : Key → Bool
  | .text s => sensitiveFields.contains s
  | .other _ => false

mutual
def copyAndCensorUnknownValue : Logged → Bool → Logged
  | .dict entries, _ => .dict (copyAndCensorDict entries)
  | .sequence type items, shouldCensorValues => .sequence type (copyAndCensorItems items shouldCensorValues)
  | .set frozen items, shouldCensorValues =>
    .set frozen (Logged.setOf (copyAndCensorItems items shouldCensorValues))
  | .leaf l, shouldCensorValues =>
    if shouldCensorValues && l.truthy && l.isCensorType && !l.isBool then .leaf (.text censoredString)
    else .leaf l

/-- The items that `_copy_and_censor_iterable` makes the new container of. -/
def copyAndCensorItems : List Logged → Bool → List Logged
  | [], _ => []
  | v :: items, shouldCensorValues =>
    copyAndCensorUnknownValue v shouldCensorValues :: copyAndCensorItems items shouldCensorValues

def copyAndCensorDict : List (Key × Logged) → List (Key × Logged)
  | [] => []
  | (k, v) :: entries => (k, copyAndCensorUnknownValue v (isSensitive k)) :: copyAndCensorDict entries
end

end RecursivelyCensoredDictWrapper

/-- A wrapper and its two caches. -/
structure RecursivelyCensoredDictWrapper where
  wrappedDict : List (Key × Logged)
  dictCache : Option (List (Key × Logged)) := none
  reprCache : Option String := none

namespace RecursivelyCensoredDictWrapper

/-- `__init__`. -/
def new : Logged → Except Exc RecursivelyCensoredDictWrapper
  | .dict entries => .ok { wrappedDict := entries }
  | _ => .error (.valueError "wrapped_dict must be a dict")

section repr
variable (repr : List (Key × Logged) → String) (wrapper : RecursivelyCensoredDictWrapper)

/-- `_get_repr_cache`, which fills the cache of the dict if that is missing or empty. -/
def getReprCache : String × RecursivelyCensoredDictWrapper :=
  let cache := (wrapper.dictCache.filter (!·.isEmpty)).getD (copyAndCensorDict wrapper.wrappedDict)
  (repr cache, { wrapper with dictCache := some cache })

/-- `__repr__`; `repr` is that of a dict. -/
def toRepr : String × RecursivelyCensoredDictWrapper :=
  match wrapper.reprCache.filter (· ≠ "") with
  | some text => (text, wrapper)
  | none =>
    let out := wrapper.getReprCache repr
    (out.1, { out.2 with reprCache := some out.1 })

/-- The wrapper after a number of calls of `__repr__`. -/
def afterReprs : ℕ → RecursivelyCensoredDictWrapper
  | 0 => wrapper
  | n + 1 => ((afterReprs n).toRepr repr).2

end repr
end RecursivelyCensoredDictWrapper

namespace Logged
open RecursivelyCensoredDictWrapper (isSensitive)

mutual
/-- Two structures are identical except at positions where both have secrets. -/
def Agree (sensitive : Bool) : Logged → Logged → Prop
  | .leaf l, .leaf l' => l = l' ∨ (l.secret sensitive = true ∧ l'.secret sensitive = true)
  | .sequence type items, .sequence type' items' => type = type' ∧ AgreeAll sensitive items items'
  | .set frozen items, v => v = .set frozen items
  | .dict entries, .dict entries' => AgreeEntries entries entries'
  | _, _ => False

def AgreeAll (sensitive : Bool) : List Logged → List Logged → Prop
  | [], [] => True
  | v :: items, v' :: items' => Agree sensitive v v' ∧ AgreeAll sensitive items items'
  | _, _ => False

def AgreeEntries : List (Key × Logged) → List (Key × Logged) → Prop
  | [], [] => True
  | (k, v) :: entries, (k', v') :: entries' =>
    k = k' ∧ Agree (isSensitive k) v v' ∧ AgreeEntries entries entries'
  | _, _ => False
end

mutual
/-- The second structure has the values of the first in their places, other than secrets. The place of
an item in a set is that it is there, or an equal one. -/
def Keeps (sensitive : Bool) : Logged → Logged → Prop
  | .leaf l, copy => l.secret sensitive = false → copy = .leaf l
  | .sequence type items, copy => ∃ items', copy = .sequence type items' ∧ KeepsAll sensitive items items'
  | .set frozen items, copy => ∃ items' copies, copy = .set frozen items' ∧
      KeepsAll sensitive items copies ∧ items'.Sublist copies ∧
      (∀ v ∈ copies, ∃ w ∈ items', w = v ∨ same w v = true) ∧
      (∀ l, .leaf l ∈ items → l.secret sensitive = false → .leaf l ∈ items') ∧
      (sensitive = false → items' = items)
  | .dict entries, copy => ∃ entries', copy = .dict entries' ∧ KeepsEntries entries entries'

def KeepsAll (sensitive : Bool) : List Logged → List Logged → Prop
  | [], copies => copies = []
  | v :: items, copies => ∃ w copies', copies = w :: copies' ∧ Keeps sensitive v w ∧ KeepsAll sensitive items copies'

def KeepsEntries : List (Key × Logged) → List (Key × Logged) → Prop
  | [], copies => copies = []
  | (k, v) :: entries, copies =>
    ∃ w copies', copies = (k, w) :: copies' ∧ Keeps (isSensitive k) v w ∧ KeepsEntries entries copies'
end

mutual
/-- The value can be hashed. -/
def isHashable : Logged → Bool
  | .leaf _ => true
  | .sequence type items => type = .tuple && allHashable items
  | .set frozen _ => frozen
  | .dict _ => false

def allHashable : List Logged → Bool
  | [] => true
  | v :: items => isHashable v && allHashable items
end

mutual
/-- The items of sets can be hashed, and no two of them are equal. -/
def WellFormed : Logged → Prop
  | .leaf _ => True
  | .sequence _ items => AllWellFormed items
  | .set _ items => AllWellFormed items ∧ allHashable items = true ∧
      items.Pairwise fun v w => same v w = false
  | .dict entries => EntriesWellFormed entries

def AllWellFormed : List Logged → Prop
  | [] => True
  | v :: items => WellFormed v ∧ AllWellFormed items

def EntriesWellFormed : List (Key × Logged) → Prop
  | [] => True
  | (_, v) :: entries => WellFormed v ∧ EntriesWellFormed entries
end

end Logged

namespace RecursivelyCensoredDictWrapper
open Logged

lemma copyAndCensor_leaf (l : Leaf) (sensitive : Bool) :
    copyAndCensorUnknownValue (.leaf l) sensitive =
      if l.secret sensitive then .leaf (.text censoredString) else .leaf l := by
  rw [copyAndCensorUnknownValue]
  cases sensitive <;> cases l <;> simp [Leaf.secret, Leaf.truthy, Leaf.isCensorType, Leaf.isBool]

section noninterference

mutual
/-- The copies of structures that agree are the same. -/
theorem copy_eq_of_agree {sensitive : Bool} : ∀ {v v' : Logged}, Agree sensitive v v' →
    copyAndCensorUnknownValue v sensitive = copyAndCensorUnknownValue v' sensitive
  | .leaf l, .leaf l', h => by
    obtain rfl | ⟨hl, hl'⟩ := h
    · rfl
    · rw [copyAndCensor_leaf, copyAndCensor_leaf, if_pos hl, if_pos hl']
  | .sequence type items, .sequence type' items', h => by
    obtain ⟨rfl, hitems⟩ := h
    rw [copyAndCensorUnknownValue, copyAndCensorUnknownValue, copyItems_eq_of_agree hitems]
  | .set frozen items, v, h => by
    have hv : v = .set frozen items := by
      cases v <;> exact h
    rw [hv]
  | .dict entries, .dict entries', h => by
    rw [copyAndCensorUnknownValue, copyAndCensorUnknownValue, copyDict_eq_of_agree h]
  | .leaf _, .sequence _ _, h | .leaf _, .set _ _, h | .leaf _, .dict _, h => h.elim
  | .sequence _ _, .leaf _, h | .sequence _ _, .set _ _, h | .sequence _ _, .dict _, h => h.elim
  | .dict _, .leaf _, h | .dict _, .sequence _ _, h | .dict _, .set _ _, h => h.elim

theorem copyItems_eq_of_agree {sensitive : Bool} : ∀ {items items' : List Logged},
    AgreeAll sensitive items items' →
      copyAndCensorItems items sensitive = copyAndCensorItems items' sensitive
  | [], [], _ => rfl
  | v :: items, v' :: items', h => by
    rw [copyAndCensorItems, copyAndCensorItems, copy_eq_of_agree h.1, copyItems_eq_of_agree h.2]
  | [], _ :: _, h | _ :: _, [], h => h.elim

theorem copyDict_eq_of_agree : ∀ {entries entries' : List (Key × Logged)}, AgreeEntries entries entries' →
    copyAndCensorDict entries = copyAndCensorDict entries'
  | [], [], _ => rfl
  | (k, v) :: entries, (k', v') :: entries', h => by
    obtain ⟨rfl, hv, hentries⟩ := h
    rw [copyAndCensorDict, copyAndCensorDict, copy_eq_of_agree hv, copyDict_eq_of_agree hentries]
  | [], _ :: _, h | _ :: _, [], h => h.elim
end

end noninterference

section sets
variable {items : List Logged}

lemma foldl_sublist (found : List Logged) (items : List Logged) :
    ∃ added, items.foldl (fun found v => if found.any (same · v) then found else found ++ [v]) found =
      found ++ added ∧ added.Sublist items := by
  induction items generalizing found with
  | nil => exact ⟨[], by simp, List.Sublist.refl _⟩
  | cons v items ih =>
    rw [List.foldl_cons]
    by_cases h : found.any (same · v) = true
    · obtain ⟨added, hadded, hsublist⟩ := ih found
      rw [if_pos h]
      exact ⟨added, hadded, hsublist.cons v⟩
    · obtain ⟨added, hadded, hsublist⟩ := ih (found ++ [v])
      rw [if_neg h]
      exact ⟨v :: added, by rw [hadded, List.append_assoc, List.singleton_append], hsublist.cons_cons v⟩

lemma setOf_sublist (items : List Logged) : (Logged.setOf items).Sublist items := by
  obtain ⟨added, hadded, hsublist⟩ := foldl_sublist [] items
  unfold Logged.setOf
  rw [hadded, List.nil_append]
  exact hsublist

lemma exists_mem_foldl (found : List Logged) {v : Logged} (hv : v ∈ items) :
    ∃ w ∈ items.foldl (fun found v => if found.any (same · v) then found else found ++ [v]) found,
      w = v ∨ same w v = true := by
  induction items generalizing found with
  | nil => cases hv
  | cons head items ih =>
    rw [List.foldl_cons]
    obtain rfl | hv := List.mem_cons.mp hv
    · obtain ⟨added, hadded, -⟩ := foldl_sublist (if found.any (same · v) then found else found ++ [v]) items
      rw [hadded]
      by_cases h : found.any (same · v) = true
      · obtain ⟨w, hw, hsame⟩ := List.any_eq_true.mp h
        rw [if_pos h]
        exact ⟨w, List.mem_append_left _ hw, Or.inr hsame⟩
      · rw [if_neg h]
        exact ⟨v, List.mem_append_left _ (List.mem_append_right _ (List.mem_singleton_self v)), Or.inl rfl⟩
    · exact ih _ hv

/-- Every item is in the set, or an equal one. -/
lemma exists_mem_setOf {v : Logged} (hv : v ∈ items) : ∃ w ∈ Logged.setOf items, w = v ∨ same w v = true :=
  exists_mem_foldl [] hv

lemma foldl_of_pairwise (found : List Logged)
    (h : (found ++ items).Pairwise fun v w => same v w = false) :
    items.foldl (fun found v => if found.any (same · v) then found else found ++ [v]) found =
      found ++ items := by
  induction items generalizing found with
  | nil => rw [List.foldl_nil, List.append_nil]
  | cons v items ih =>
    have hnew : ¬found.any (same · v) = true := by
      intro hany
      obtain ⟨w, hw, hsame⟩ := List.any_eq_true.mp hany
      have hfalse := (List.pairwise_append.mp h).2.2 w hw v List.mem_cons_self
      rw [hfalse] at hsame
      cases hsame
    rw [List.append_cons] at h
    rw [List.foldl_cons, if_neg hnew, ih _ h, List.append_assoc, List.singleton_append]

lemma setOf_of_pairwise (h : items.Pairwise fun v w => same v w = false) :
    Logged.setOf items = items :=
  foldl_of_pairwise [] h

lemma leafSame_comm (l l' : Leaf) : l.same l' = l'.same l := by
  unfold Leaf.same
  cases l.number? <;> cases l'.number? <;> simp [eq_comm]

lemma sensitive_of_secret {sensitive : Bool} {l : Leaf} (h : l.secret sensitive = true) : sensitive = true := by
  cases sensitive with
  | true => rfl
  | false => cases l <;> cases h

/-- No other leaf is equal to what takes the place of secrets. -/
lemma same_censoredString {l : Leaf} (h : l.secret true = false) :
    same (.leaf (.text censoredString)) (.leaf l) = false := by
  rw [same]
  cases l with
  | text s =>
    have hs : s = "" := by simpa [Leaf.secret] using h
    subst hs
    decide
  | none | bool | int | float | bytes | object => simp [Leaf.same, Leaf.number?]

lemma same_leaf_of_pairwise (h : items.Pairwise fun v w => same v w = false) {l l' : Leaf}
    (hl : .leaf l ∈ items) (hl' : .leaf l' ∈ items) (hne : Logged.leaf l ≠ .leaf l') :
    same (.leaf l) (.leaf l') = false := by
  have hleaves : items.Pairwise fun v w => ∀ l l', v = .leaf l → w = .leaf l' → l.same l' = false := by
    apply h.imp
    intro v w hvw l l' heq heq'
    rw [heq, heq', same] at hvw
    exact hvw
  have hsymm : Std.Symm fun v w : Logged => ∀ l l', v = .leaf l → w = .leaf l' → l.same l' = false := by
    constructor
    intro v w hvw l l' heq heq'
    rw [leafSame_comm]
    exact hvw l' l heq' heq
  rw [same]
  exact hleaves.forall hl hl' hne l l' rfl rfl

lemma mem_copyAndCensorItems {sensitive : Bool} {w : Logged} :
    w ∈ copyAndCensorItems items sensitive ↔ ∃ v ∈ items, w = copyAndCensorUnknownValue v sensitive := by
  induction items with
  | nil => simp [copyAndCensorItems]
  | cons v items ih => simp [copyAndCensorItems, ih]

/-- A leaf that is not secret is equal to no other one of the copied items. -/
lemma same_copy_leaf (hpairwise : items.Pairwise fun v w => same v w = false) {sensitive : Bool} {l : Leaf}
    (hl : .leaf l ∈ items) (hsecret : l.secret sensitive = false) {w : Logged}
    (hw : w ∈ copyAndCensorItems items sensitive) (hne : w ≠ .leaf l) : same w (.leaf l) = false := by
  obtain ⟨v, hv, rfl⟩ := mem_copyAndCensorItems.mp hw
  cases v with
  | leaf l' =>
    rw [copyAndCensor_leaf] at hne ⊢
    by_cases hsecret' : l'.secret sensitive = true
    · have hsensitive : sensitive = true := sensitive_of_secret hsecret'
      rw [hsensitive] at hsecret
      rw [if_pos hsecret']
      exact same_censoredString hsecret
    · rw [if_neg hsecret'] at hne ⊢
      exact same_leaf_of_pairwise hpairwise hv hl hne
  | sequence type items => simp [copyAndCensorUnknownValue, same]
  | set frozen items => simp [copyAndCensorUnknownValue, same]
  | dict entries => simp [copyAndCensorUnknownValue, same]

end sets

section frame

mutual
lemma copy_of_isHashable : ∀ {v : Logged}, isHashable v = true → WellFormed v →
    copyAndCensorUnknownValue v false = v
  | .leaf l, _, _ => by
    rw [copyAndCensor_leaf]
    cases l <;> rfl
  | .sequence type items, hv, hwell => by
    rw [isHashable, Bool.and_eq_true] at hv
    rw [copyAndCensorUnknownValue, copyItems_of_allHashable hv.2 hwell]
  | .set frozen items, _, hwell => by
    obtain ⟨hitems, hhashable, hpairwise⟩ := hwell
    rw [copyAndCensorUnknownValue, copyItems_of_allHashable hhashable hitems, setOf_of_pairwise hpairwise]
  | .dict _, hv, _ => by cases hv

lemma copyItems_of_allHashable : ∀ {items : List Logged}, allHashable items = true → AllWellFormed items →
    copyAndCensorItems items false = items
  | [], _, _ => rfl
  | v :: items, hitems, hwell => by
    rw [allHashable, Bool.and_eq_true] at hitems
    rw [copyAndCensorItems, copy_of_isHashable hitems.1 hwell.1, copyItems_of_allHashable hitems.2 hwell.2]
end

mutual
/-- The copy of a structure has everything in its place, other than secrets. -/
theorem keeps_copy (sensitive : Bool) : ∀ {v : Logged}, WellFormed v →
    Keeps sensitive v (copyAndCensorUnknownValue v sensitive)
  | .leaf l, _ => by
    intro hsecret
    rw [copyAndCensor_leaf, hsecret]
    rfl
  | .sequence type items, hwell => by
    rw [copyAndCensorUnknownValue]
    exact ⟨_, rfl, keepsAll_copy sensitive hwell⟩
  | .set frozen items, hwell => by
    obtain ⟨hitems, hhashable, hpairwise⟩ := hwell
    rw [copyAndCensorUnknownValue]
    refine ⟨_, copyAndCensorItems items sensitive, rfl, keepsAll_copy sensitive hitems, setOf_sublist _,
      fun v hv => exists_mem_setOf hv, ?_, ?_⟩
    · intro l hl hsecret
      have hcopy : Logged.leaf l ∈ copyAndCensorItems items sensitive := by
        apply mem_copyAndCensorItems.mpr
        refine ⟨.leaf l, hl, ?_⟩
        rw [copyAndCensor_leaf, hsecret]
        rfl
      obtain ⟨w, hw, heq⟩ := exists_mem_setOf hcopy
      by_cases hwl : w = .leaf l
      · rwa [← hwl]
      · have hfalse := same_copy_leaf hpairwise hl hsecret ((setOf_sublist _).subset hw) hwl
        rw [hfalse] at heq
        obtain heq | heq := heq
        · exact absurd heq hwl
        · cases heq
    · intro hsensitive
      rw [hsensitive, copyItems_of_allHashable hhashable hitems, setOf_of_pairwise hpairwise]
  | .dict entries, hwell => by
    rw [copyAndCensorUnknownValue]
    exact ⟨_, rfl, keepsEntries_copy hwell⟩

theorem keepsAll_copy (sensitive : Bool) : ∀ {items : List Logged}, AllWellFormed items →
    KeepsAll sensitive items (copyAndCensorItems items sensitive)
  | [], _ => rfl
  | _ :: _, hwell => ⟨_, _, rfl, keeps_copy sensitive hwell.1, keepsAll_copy sensitive hwell.2⟩

theorem keepsEntries_copy : ∀ {entries : List (Key × Logged)}, EntriesWellFormed entries →
    KeepsEntries entries (copyAndCensorDict entries)
  | [], _ => rfl
  | (k, _) :: _, hwell => ⟨_, _, rfl, keeps_copy (isSensitive k) hwell.1, keepsEntries_copy hwell.2⟩
end

end frame

section repr
variable {repr : List (Key × Logged) → String} {wrapper : RecursivelyCensoredDictWrapper}

/-- The caches hold what is to be computed. -/
structure Cached (repr : List (Key × Logged) → String) (entries : List (Key × Logged))
    (wrapper : RecursivelyCensoredDictWrapper) : Prop where
  wrappedDict : wrapper.wrappedDict = entries
  dictCache : ∀ cache, wrapper.dictCache = some cache → cache = copyAndCensorDict entries
  reprCache : ∀ text, wrapper.reprCache = some text → text = repr (copyAndCensorDict entries)

lemma getReprCache_of_cached {entries : List (Key × Logged)} (h : Cached repr entries wrapper) :
    wrapper.getReprCache repr = (repr (copyAndCensorDict entries),
      { wrapper with dictCache := some (copyAndCensorDict entries) }) := by
  have hcache : (wrapper.dictCache.filter (!·.isEmpty)).getD (copyAndCensorDict wrapper.wrappedDict) =
      copyAndCensorDict entries := by
    rw [h.wrappedDict]
    cases hfilter : wrapper.dictCache.filter (!·.isEmpty) with
    | none => rfl
    | some cache => exact h.dictCache cache (Option.filter_eq_some_iff.mp hfilter).1
  unfold getReprCache
  rw [hcache]

/-- One call of `__repr__`. -/
lemma toRepr_of_cached {entries : List (Key × Logged)} (h : Cached repr entries wrapper) :
    (wrapper.toRepr repr).1 = repr (copyAndCensorDict entries) ∧
      Cached repr entries (wrapper.toRepr repr).2 := by
  unfold toRepr
  cases hfilter : wrapper.reprCache.filter (· ≠ "") with
  | some text => exact ⟨h.reprCache text (Option.filter_eq_some_iff.mp hfilter).1, h⟩
  | none =>
    dsimp only
    rw [getReprCache_of_cached h]
    refine ⟨rfl, h.wrappedDict, ?_, ?_⟩
    · intro cache hcache
      exact (Option.some.inj hcache).symm
    · intro text htext
      exact (Option.some.inj htext).symm

/-- All calls of `__repr__`. -/
lemma cached_afterReprs (repr : List (Key × Logged) → String) (entries : List (Key × Logged)) (n : ℕ) :
    Cached repr entries (afterReprs repr { wrappedDict := entries } n) := by
  induction n with
  | zero =>
    refine ⟨rfl, ?_, ?_⟩
    · intro cache hcache
      cases hcache
    · intro text htext
      cases htext
  | succ n ih => exact (toRepr_of_cached ih).2

end repr

/-- **Censoring does not leak secrets and keeps everything else.** Dicts that agree have the same copies;
the copy of a dict has everything in its place, other than secrets; the wrapped dict is not changed,
however often its text is asked for, and the text is always that of the copy. -/
theorem censoring_noninterfering :
    (∀ entries entries', AgreeEntries entries entries' →
      copyAndCensorDict entries = copyAndCensorDict entries') ∧
    (∀ entries, EntriesWellFormed entries → KeepsEntries entries (copyAndCensorDict entries)) ∧
    ∀ (repr : List (Key × Logged) → String) (entries : List (Key × Logged)) (n : ℕ),
      (afterReprs repr { wrappedDict := entries } n).wrappedDict = entries ∧
      ((afterReprs repr { wrappedDict := entries } n).toRepr repr).1 = repr (copyAndCensorDict entries) := by
  refine ⟨?_, ?_, ?_⟩
  · intro entries entries' h
    exact copyDict_eq_of_agree h
  · intro entries h
    exact keepsEntries_copy h
  · intro repr entries n
    have hcached := cached_afterReprs repr entries n
    exact ⟨hcached.wrappedDict, (toRepr_of_cached hcached).1⟩

theorem censoring_noninterfering_passwords :
    copyAndCensorDict [(.text "passwords", .sequence .list [.leaf (.text "a"), .leaf .none])] =
      copyAndCensorDict [(.text "passwords", .sequence .list [.leaf (.int 7), .leaf .none])] := by
  have hkey : isSensitive (.text "passwords") = true := by decide +kernel
  apply censoring_noninterfering.1
  refine ⟨rfl, ?_, trivial⟩
  rw [hkey]
  exact ⟨rfl, Or.inr ⟨rfl, rfl⟩, Or.inl rfl, trivial⟩

end RecursivelyCensoredDictWrapper
end PySOA
