import Kreg.RuleUses

namespace Kreg
set_option autoImplicit true

structure LargeCommunity where
  asn : UInt32
  localData1 : UInt32
  localData2 : UInt32
deriving DecidableEq

/-- `%d` of a `uint32`. -/
def decimal (n : UInt32) : String :=
  n.toNat.repr

def LargeCommunity.text (c : LargeCommunity) : String :=
  decimal c.asn ++ ":" ++ decimal c.localData1 ++ ":" ++ decimal c.localData2

def decodeLargeCommunities (values : List LargeCommunity) : GoSlice String :=
  .made (values.map LargeCommunity.text)

/-- A pattern of a CommunityMap in canonical form; no value stands for `*`. -/
structure CommunityPattern where
  globalAdmin : UInt32
  function : UInt32
  value : Option UInt32
deriving DecidableEq

def CommunityPattern.text (p : CommunityPattern) : String :=
  decimal p.globalAdmin ++ ":" ++ decimal p.function ++ ":" ++ (p.value.map decimal).getD "*"

def CommunityPattern.matches (p : CommunityPattern) (c : LargeCommunity) : Bool :=
  c.asn == p.globalAdmin && c.localData1 == p.function && (p.value.all fun v => c.localData2 == v)

section Text

theorem isDigit_of_mem_decimal (h : c ∈ (decimal n).toList) : c.isDigit = true := by
  rw [decimal, Nat.toList_repr] at h
  exact Nat.isDigit_of_mem_toDigits (by decide) (by decide) h

theorem colon_not_mem_decimal (n : UInt32) : ':' ∉ (decimal n).toList :=
  fun h => absurd (isDigit_of_mem_decimal h) (by decide)

theorem decimal_ne_star (n : UInt32) : decimal n ≠ "*" := by
  intro he
  have h : '*' ∈ (decimal n).toList := by
    rw [he]
    exact List.mem_singleton.2 rfl
  exact absurd (isDigit_of_mem_decimal h) (by decide)

theorem parseUint_decimal (n : UInt32) : parseUint (decimal n).toList = .ok n.toNat := by
  have hvalue : decimalFrom 0 (decimal n).toList = n.toNat := by
    have h : decimalFrom 0 (decimal n).toList = Nat.ofDigitChars 10 (decimal n).toList 0 := by
      rw [decimalFrom, Nat.ofDigitChars]
      simp only [digitValue, Nat.mul_comm]
    rw [h, decimal, Nat.toList_repr]
    exact Nat.ofDigitChars_ten_toDigits
  rw [parseUint_ok_iff, hvalue]
  refine ⟨?_, List.all_eq_true.2 fun c hc => isDigit_of_mem_decimal hc, ?_, rfl⟩
  · rw [decimal, Nat.toList_repr]
    exact Nat.toDigits_ne_nil
  · exact Nat.le_of_lt_succ n.toNat_lt

theorem decimal_inj {m n : UInt32} : decimal m = decimal n ↔ m = n := by
  constructor
  · intro h
    have hread := (parseUint_decimal m).symm.trans (h ▸ parseUint_decimal n)
    exact UInt32.toNat_inj.1 (Except.ok.inj hread)
  · exact fun h => h ▸ rfl

theorem cut_append (h : sep ∉ a) (s : List Char) : cut sep (a ++ sep :: s) = some (a, s) := by
  induction a with
  | nil => exact if_pos rfl
  | cons c a ih =>
    rw [List.mem_cons, not_or] at h
    rw [List.cons_append, cut, if_neg (Ne.symm h.1), ih h.2]
    rfl

theorem splitN_joined {a b : String} (ha : ':' ∉ a.toList) (hb : ':' ∉ b.toList) (c : String) :
    splitN (a ++ ":" ++ b ++ ":" ++ c) ':' 3 = [a, b, c] := by
  have htext : (a ++ ":" ++ b ++ ":" ++ c).toList =
      a.toList ++ ':' :: (b.toList ++ ':' :: c.toList) := by
    simp only [String.toList_append, List.append_assoc]
    rfl
  simp only [splitN, htext, splitChars, cut_append ha, cut_append hb, List.map_cons, List.map_nil,
    String.ofList_toList]

theorem splitN_text (c : LargeCommunity) :
    splitN c.text ':' 3 = [decimal c.asn, decimal c.localData1, decimal c.localData2] :=
  splitN_joined (colon_not_mem_decimal _) (colon_not_mem_decimal _) _

theorem splitN_pattern (p : CommunityPattern) :
    splitN p.text ':' 3 =
      [decimal p.globalAdmin, decimal p.function, (p.value.map decimal).getD "*"] :=
  splitN_joined (colon_not_mem_decimal _) (colon_not_mem_decimal _) _

end Text

theorem matches_iff (p : CommunityPattern) (c : LargeCommunity) :
    p.matches c = true ↔
      ¬ (decimal c.asn ≠ decimal p.globalAdmin ∨ decimal c.localData1 ≠ decimal p.function) ∧
        ¬ ((p.value.map decimal).getD "*" ≠ "*" ∧
          decimal c.localData2 ≠ (p.value.map decimal).getD "*") := by
  simp only [CommunityPattern.matches, Bool.and_eq_true, beq_iff_eq, ne_eq, decimal_inj, not_or,
    not_not, and_assoc]
  apply and_congr_right
  intro _
  apply and_congr_right
  intro _
  cases p.value with
  | none => simp only [Option.all_none, Option.map_none, Option.getD_none, not_true_eq_false,
      false_and, not_false_eq_true]
  | some v =>
    simp only [Option.all_some, beq_iff_eq, Option.map_some, Option.getD_some, decimal_ne_star,
      not_false_eq_true, true_and, decimal_inj, not_not]

/-- A rule matches the first community whose numbers agree with it, and captures its third. -/
theorem matchLargeCommunity_text (p : CommunityPattern) (values : List LargeCommunity) :
    matchLargeCommunity p.text (decodeLargeCommunities values).elems =
      (values.find? p.matches).map fun c => decimal c.localData2 := by
  have hloop : ∀ values : List LargeCommunity,
      matchCommunities [decimal p.globalAdmin, decimal p.function, (p.value.map decimal).getD "*"]
          (values.map LargeCommunity.text) =
        (values.find? p.matches).map fun c => decimal c.localData2 := by
    intro values
    induction values with
    | nil => rfl
    | cons c values ih =>
      simp only [List.map_cons, matchCommunities, splitN_text]
      cases hm : p.matches c with
      | true =>
        obtain ⟨hhead, hvalue⟩ := (matches_iff p c).1 hm
        rw [if_neg hhead, if_neg hvalue, List.find?_cons_of_pos hm]
        rfl
      | false =>
        rw [List.find?_cons_of_neg (by rw [hm]; exact Bool.false_ne_true), ← ih]
        split
        · rfl
        · next hhead =>
          split
          · rfl
          · next hvalue =>
            rw [(matches_iff p c).2 ⟨hhead, hvalue⟩] at hm
            cases hm
  rw [matchLargeCommunity, splitN_pattern]
  exact hloop values

def patternUses (pattern : CommunityRule → CommunityPattern) (rules : List CommunityRule)
    (values : List LargeCommunity) : List FieldUse :=
  rules.filterMap fun rule => (values.find? (pattern rule).matches).map fun c =>
    ⟨rule.set.field, fieldValue rule.set (decimal c.localData2)⟩

theorem ruleUses_decoded {rules : List CommunityRule}
    (hpattern : ∀ rule ∈ rules, rule.largeCommunity = (pattern rule).text)
    (values : List LargeCommunity) :
    ruleUses (decodeLargeCommunities values).elems rules = patternUses pattern rules values := by
  apply List.filterMap_congr
  intro rule hrule
  rw [hpattern rule hrule, matchLargeCommunity_text, Option.map_map]
  rfl

/-- Decoding communities from the wire to the candidate: matching is numeric, a route decodes if
every matching rule can read the text it uses, and then the last rule for a field sets it. -/
theorem normalizeRoute_communities {F : Type} (r : RIBRoute) (values : List LargeCommunity)
    (cm : CommunityMapSpec) (pattern : CommunityRule → CommunityPattern)
    (hpattern : ∀ rule ∈ cm.rules, rule.largeCommunity = (pattern rule).text)
    (hvalues : r.largeCommunities = decodeLargeCommunities values) (hrej : r.rejected = false) :
    (∀ rule ∈ cm.rules, matchLargeCommunity rule.largeCommunity r.largeCommunities.elems =
      (values.find? (pattern rule).matches).map fun c => decimal c.localData2) ∧
    (∀ n, parseUint (decimal n).toList = .ok n.toNat) ∧
    ((∃ c : BackendCandidate F, normalizeRoute r (some cm) = .ok c) ↔
      ∀ u ∈ patternUses pattern cm.rules values, u.field.Reads u.text) ∧
    ∀ c : BackendCandidate F, normalizeRoute r (some cm) = .ok c →
      Decoded (patternUses pattern cm.rules values) (some cm) r c := by
  have huses : ruleUses r.largeCommunities.elems (communityRules (some cm)) =
      patternUses pattern cm.rules values := by
    rw [hvalues]
    exact ruleUses_decoded hpattern values
  refine ⟨?_, parseUint_decimal, ?_, ?_⟩
  · intro rule hrule
    rw [hpattern rule hrule, hvalues, matchLargeCommunity_text]
  · rw [normalizeRoute_ok_iff, decodable_iff, huses]
    exact ⟨fun h => h hrej, fun h _ => h⟩
  · intro c hc
    rw [← huses]
    exact normalizeRoute_decoded hrej hc

/-- One rule: the third number of communities `64512:1:*` is the weight. -/
def weightMap : CommunityMapSpec where
  rules := [⟨"64512:1:*", ⟨.weight, none, true⟩⟩]
  fallbacks := none
  onUnmappedCommunity := .warn

def taggedRoute (values : List LargeCommunity) : RIBRoute :=
  ⟨"10.0.1.0/24", "edge", "192.0.2.1", ⟨"eu", "a"⟩, 0, .made [64512],
    decodeLargeCommunities values, false, ""⟩

theorem normalizeRoute_communities_weight :
    ∃ c : BackendCandidate Unit,
      normalizeRoute (taggedRoute [⟨64512, 2, 7⟩, ⟨64512, 1, 50⟩]) (some weightMap) = .ok c ∧
        c.weight = 50 := by
  have hpattern : ∀ rule ∈ weightMap.rules,
      rule.largeCommunity = CommunityPattern.text ⟨64512, 1, none⟩ := by
    decide +kernel
  obtain ⟨_, _, hok, hdecoded⟩ := normalizeRoute_communities (F := Unit)
    (taggedRoute [⟨64512, 2, 7⟩, ⟨64512, 1, 50⟩]) _ weightMap (fun _ => ⟨64512, 1, none⟩) hpattern
    rfl rfl
  obtain ⟨c, hc⟩ := hok.2 (by decide +kernel)
  refine ⟨c, hc, ?_⟩
  rw [(hdecoded c hc).weight]
  decide +kernel

/-- A route without a community any rule knows, under `warn`: accepted with a reason it did not
come with. -/
theorem normalizeRoute_warned :
    ∃ c : BackendCandidate Unit,
      normalizeRoute (taggedRoute [⟨64512, 2, 7⟩]) (some weightMap) = .ok c ∧
        c.rejected = false ∧ c.reason ≠ (taggedRoute [⟨64512, 2, 7⟩]).reason :=
  ⟨_, rfl, rfl, by decide +kernel⟩

end Kreg
