import Kreg.Normalize

namespace Kreg
set_option autoImplicit true

def decimalFrom (n : Nat) (s : List Char) : Nat :=
  s.foldl (fun n c => n * 10 + digitValue c) n

theorem le_decimalFrom (n : Nat) (s : List Char) : n ≤ decimalFrom n s := by
  induction s generalizing n with
  | nil => exact le_refl n
  | cons c s ih =>
    have h := ih (n * 10 + digitValue c)
    change n ≤ decimalFrom (n * 10 + digitValue c) s
    omega

theorem parseUintFrom_ok_iff (hn : n ≤ maxVal) :
    parseUintFrom maxVal s n = .ok m ↔
      s.all Char.isDigit = true ∧ decimalFrom n s ≤ maxVal ∧ m = decimalFrom n s := by
  induction s generalizing n with
  | nil =>
    rw [parseUintFrom, Except.ok.injEq]
    exact ⟨fun h => ⟨rfl, hn, h.symm⟩, fun h => h.2.2.symm⟩
  | cons c s ih =>
    have hcons : decimalFrom n (c :: s) = decimalFrom (n * 10 + digitValue c) s := rfl
    rw [parseUintFrom, List.all_cons, Bool.and_eq_true, hcons]
    cases hc : c.isDigit with
    | false =>
      simp only [Bool.false_eq_true, ↓reduceIte, reduceCtorEq, false_and]
    | true =>
      simp only [↓reduceIte, true_and]
      by_cases hlt : maxVal < n * 10 + digitValue c
      · have hle := le_decimalFrom (n * 10 + digitValue c) s
        rw [if_pos hlt]
        constructor
        · intro h
          cases h
        · rintro ⟨_, h, _⟩
          omega
      · rw [if_neg hlt]
        exact ih (not_lt.1 hlt)

def int32Bound (negative : Bool) : Nat :=
  if negative then 2147483648 else 2147483647

/-- An optional sign and decimal digits for a number that fits 32 bits. -/
def Int32Text (s : String) : Prop :=
  (signedDigits s.toList).2 ≠ [] ∧ (signedDigits s.toList).2.all Char.isDigit = true ∧
    decimalFrom 0 (signedDigits s.toList).2 ≤ int32Bound (signedDigits s.toList).1

instance (s : String) : Decidable (Int32Text s) :=
  inferInstanceAs (Decidable (_ ∧ _ ∧ _))

theorem parseUint_ok_iff (s : List Char) (m : Nat) :
    parseUint s = .ok m ↔
      s ≠ [] ∧ s.all Char.isDigit = true ∧ decimalFrom 0 s ≤ 4294967295 ∧
        m = decimalFrom 0 s := by
  rw [parseUint]
  split
  · next h => exact ⟨nofun, fun h' => (h'.1 h).elim⟩
  · next h =>
    rw [parseUintFrom_ok_iff (Nat.zero_le _)]
    exact ⟨fun h' => ⟨h, h'⟩, And.right⟩

theorem parseInt_ok_iff (s : String) : (∃ n, parseInt s = .ok n) ↔ Int32Text s := by
  rw [parseInt, Int32Text]
  generalize signedDigits s.toList = p
  obtain ⟨negative, digits⟩ := p
  simp only
  cases hu : parseUint digits with
  | error e =>
    simp only [reduceCtorEq, exists_false, false_iff]
    rintro ⟨hne, hd, hle⟩
    have hmax : int32Bound negative ≤ 4294967295 := by
      cases negative <;> decide
    have hok := (parseUint_ok_iff digits _).2 ⟨hne, hd, le_trans hle hmax, rfl⟩
    rw [hu] at hok
    cases hok
  | ok m =>
    obtain ⟨hne, hd, _, rfl⟩ := (parseUint_ok_iff digits m).1 hu
    simp only [hne, ne_eq, not_false_eq_true, true_and, int32Bound]
    cases negative with
    | true =>
      simp only [↓reduceIte]
      split
      · next h =>
        simp only [reduceCtorEq, exists_false, false_iff, not_and]
        exact fun _ => not_le.2 h
      · next h => exact ⟨fun _ => ⟨hd, not_lt.1 h⟩, fun _ => ⟨_, rfl⟩⟩
    | false =>
      simp only [Bool.false_eq_true, ↓reduceIte]
      split
      · next h =>
        simp only [reduceCtorEq, exists_false, false_iff, not_and]
        intro _
        omega
      · next h => exact ⟨fun _ => ⟨hd, by omega⟩, fun _ => ⟨_, rfl⟩⟩

def boolTexts : List String :=
  ["1", "t", "T", "true", "TRUE", "True", "0", "f", "F", "false", "FALSE", "False"]

theorem parseBool_ok_iff (s : String) : (∃ b, parseBool s = .ok b) ↔ s ∈ boolTexts := by
  have hsplit : boolTexts = ["1", "t", "T", "true", "TRUE", "True"] ++
    ["0", "f", "F", "false", "FALSE", "False"] := rfl
  rw [parseBool, hsplit, List.mem_append]
  split
  · next h => exact ⟨fun _ => .inl h, fun _ => ⟨_, rfl⟩⟩
  · next h =>
    split
    · next h' => exact ⟨fun _ => .inr h', fun _ => ⟨_, rfl⟩⟩
    · next h' =>
      simp only [reduceCtorEq, exists_false, false_iff, not_or]
      exact ⟨h, h'⟩

/-- The texts a field of a CommunityMap can be set from. -/
def CommunityField.Reads (text : String) : CommunityField → Prop
  | .weight | .serviceTag => Int32Text text
  | .tier => True
  | .drain => text ∈ boolTexts
  | .other _ => False

instance (text : String) : (f : CommunityField) → Decidable (f.Reads text)
  | .weight | .serviceTag => inferInstanceAs (Decidable (Int32Text text))
  | .tier => .isTrue trivial
  | .drain => inferInstanceAs (Decidable (text ∈ boolTexts))
  | .other _ => .isFalse id

def communityRules (cm : Option CommunityMapSpec) : List CommunityRule :=
  (cm.map CommunityMapSpec.rules).getD []

def Decodable (rules : List CommunityRule) (communities : List String) : Prop :=
  ∀ rule ∈ rules, ∀ value ∈ matchLargeCommunity rule.largeCommunity communities,
    rule.set.field.Reads (fieldValue rule.set value)

instance (rules : List CommunityRule) (communities : List String) :
    Decidable (Decodable rules communities) :=
  inferInstanceAs (Decidable (∀ rule ∈ rules, _))

section Rules

variable {F : Type}

theorem applyFieldSet_ok_iff (c : BackendCandidate F) (set : CommunityFieldSet) (value : String) :
    (∃ c', applyFieldSet c set value = .ok c') ↔ set.field.Reads (fieldValue set value) := by
  rw [applyFieldSet]
  cases set.field with
  | weight =>
    simp only [CommunityField.Reads]
    rw [← parseInt_ok_iff]
    cases parseInt (fieldValue set value) with
    | error e => simp only [reduceCtorEq, exists_false]
    | ok n => exact ⟨fun _ => ⟨n, rfl⟩, fun _ => ⟨_, rfl⟩⟩
  | tier => exact ⟨fun _ => trivial, fun _ => ⟨_, rfl⟩⟩
  | drain =>
    simp only [CommunityField.Reads]
    rw [← parseBool_ok_iff]
    cases parseBool (fieldValue set value) with
    | error e => simp only [reduceCtorEq, exists_false]
    | ok b => exact ⟨fun _ => ⟨b, rfl⟩, fun _ => ⟨_, rfl⟩⟩
  | serviceTag =>
    simp only [CommunityField.Reads]
    rw [← parseInt_ok_iff]
    cases parseInt (fieldValue set value) with
    | error e => simp only [reduceCtorEq, exists_false]
    | ok n => exact ⟨fun _ => ⟨n, rfl⟩, fun _ => ⟨_, rfl⟩⟩
  | other name => simp only [CommunityField.Reads, reduceCtorEq, exists_false]

theorem applyRules_ok_iff (communities : List String) (rules : List CommunityRule)
    (c : BackendCandidate F) (matched weightSet : Bool) :
    (∃ p, applyRules communities rules c matched weightSet = .ok p) ↔
      Decodable rules communities := by
  induction rules generalizing c matched weightSet with
  | nil => exact ⟨fun _ _ hr => (List.not_mem_nil hr).elim, fun _ => ⟨_, rfl⟩⟩
  | cons rule rules ih =>
    rw [Decodable, List.forall_mem_cons, ← Decodable]
    simp only [applyRules]
    cases matchLargeCommunity rule.largeCommunity communities with
    | none =>
      simp only [Option.mem_def, reduceCtorEq, false_implies, implies_true, true_and]
      exact ih c matched weightSet
    | some value =>
      have hfield := applyFieldSet_ok_iff c rule.set value
      simp only [Option.mem_def, Option.some.injEq, forall_eq']
      cases hset : applyFieldSet c rule.set value with
      | error e =>
        simp only [hset, reduceCtorEq, exists_false, false_iff] at hfield ⊢
        exact fun h => hfield h.1
      | ok c' =>
        simp only [ih, (hfield.1 ⟨c', hset⟩), true_and]

theorem normalizeRoute_ok_iff (r : RIBRoute) (cm : Option CommunityMapSpec) :
    (∃ c : BackendCandidate F, normalizeRoute r cm = .ok c) ↔
      (r.rejected = false → Decodable (communityRules cm) r.largeCommunities.elems) := by
  rw [normalizeRoute, ← communityRules]
  have hrules := applyRules_ok_iff (F := F) r.largeCommunities.elems (communityRules cm) r.candidate
    false false
  cases r.rejected with
  | true => exact ⟨fun _ h => Bool.noConfusion h, fun _ => ⟨_, rfl⟩⟩
  | false =>
    simp only [Bool.false_eq_true, ↓reduceIte, true_implies]
    rw [← hrules]
    cases applyRules (F := F) r.largeCommunities.elems (communityRules cm) r.candidate false
      false with
    | error e => simp only [reduceCtorEq, exists_false]
    | ok p => exact ⟨fun _ => ⟨p, rfl⟩, fun _ => ⟨_, rfl⟩⟩

end Rules

end Kreg
