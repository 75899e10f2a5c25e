import Kreg.Communities

namespace Kreg
set_option autoImplicit true

section Capture

/-- The value segment of a community, if the pattern matches it. -/
def capture (pattern community : String) : Option String :=
  matchLargeCommunity pattern [community]

def Wildcard (pattern : String) : Prop :=
  (splitN pattern ':' 3)[2]? = some "*"

theorem capture_eq_some_iff :
    capture pattern community = some value ↔
      ∃ p₀ p₁ p₂, splitN pattern ':' 3 = [p₀, p₁, p₂] ∧ splitN community ':' 3 = [p₀, p₁, value] ∧
        (p₂ = "*" ∨ value = p₂) := by
  rw [capture, matchLargeCommunity]
  constructor
  · intro h
    simp only [matchCommunities] at h
    split at h
    · cases h
    · split at h
      · next p₀ p₁ p₂ c₀ c₁ c₂ hp hc =>
        split at h
        · cases h
        · next hhead =>
          split at h
          · cases h
          · next hvalue =>
            cases h
            simp only [not_or, not_and_or, ne_eq, not_not] at hhead hvalue
            obtain ⟨rfl, rfl⟩ := hhead
            exact ⟨_, _, _, hp, hc, hvalue⟩
      · cases h
  · rintro ⟨p₀, p₁, p₂, hp, hc, hvalue⟩
    simp only [matchCommunities, hp, hc, List.length_cons, List.length_nil, ne_eq,
      not_true_eq_false, ↓reduceIte, or_self, not_and_or.2 (hvalue.imp not_not.2 not_not.2)]

theorem matchCommunities_cons (pattern : List String) (community : String)
    (communities : List String) :
    matchCommunities pattern (community :: communities) =
      (matchCommunities pattern [community]).or (matchCommunities pattern communities) := by
  simp only [matchCommunities]
  split
  · split
    · rfl
    · split
      · rfl
      · rfl
  · rfl

theorem matchLargeCommunity_eq (pattern : String) (communities : List String) :
    matchLargeCommunity pattern communities = communities.findSome? (capture pattern) := by
  induction communities with
  | nil =>
    rw [matchLargeCommunity]
    split
    · rfl
    · rfl
  | cons community communities ih =>
    rw [List.findSome?_cons, ← ih, capture, matchLargeCommunity, matchLargeCommunity,
      matchLargeCommunity]
    split
    · rfl
    · rw [matchCommunities_cons]
      cases matchCommunities (splitN pattern ':' 3) [community] <;> rfl

theorem capture_value (h : capture pattern community = some value)
    (h' : capture pattern' community = some value') : value = value' := by
  obtain ⟨_, _, _, _, hc, _⟩ := capture_eq_some_iff.1 h
  obtain ⟨_, _, _, _, hc', _⟩ := capture_eq_some_iff.1 h'
  simp only [hc, List.cons.injEq, and_true] at hc'
  exact hc'.2.2

theorem capture_exact (hw : ¬ Wildcard pattern) (h : capture pattern community = some value)
    (h' : capture pattern community' = some value') : value = value' := by
  obtain ⟨_, _, p₂, hp, _, hvalue⟩ := capture_eq_some_iff.1 h
  obtain ⟨_, _, _, hp', _, hvalue'⟩ := capture_eq_some_iff.1 h'
  have hne : p₂ ≠ "*" := by
    intro he
    subst he
    apply hw
    rw [Wildcard, hp]
    rfl
  simp only [hp, List.cons.injEq, and_true] at hp'
  obtain ⟨_, _, rfl⟩ := hp'
  rw [hvalue.resolve_left hne, hvalue'.resolve_left hne]

theorem capture_wildcard (hw : Wildcard pattern) (hw' : Wildcard pattern')
    (h : capture pattern community = some value) (h' : capture pattern' community = some value') :
    splitN pattern ':' 3 = splitN pattern' ':' 3 := by
  obtain ⟨p₀, p₁, p₂, hp, hc, _⟩ := capture_eq_some_iff.1 h
  obtain ⟨q₀, q₁, q₂, hq, hc', _⟩ := capture_eq_some_iff.1 h'
  rw [Wildcard, hp] at hw
  rw [Wildcard, hq] at hw'
  simp only [hc, List.cons.injEq, and_true] at hc'
  obtain ⟨rfl, rfl, _⟩ := hc'
  cases hw
  cases hw'
  rw [hp, hq]

theorem capture_congr (h : splitN pattern ':' 3 = splitN pattern' ':' 3) :
    capture pattern = capture pattern' := by
  funext community
  rw [capture, capture, matchLargeCommunity, matchLargeCommunity, h]

end Capture

section Outcome

def CommunityField.SameValue (text text' : String) : CommunityField → Prop
  | .weight | .serviceTag => int32Of text = int32Of text'
  | .tier => text = text'
  | .drain => boolOf text = boolOf text'
  | .other _ => True

variable {F : Type}

def outcome : Except String (BackendCandidate F) →
    Option (Int32 × String × Bool × Option Int32 × Bool)
  | .error _ => none
  | .ok c => some (c.weight, c.tier, c.drain, c.serviceTag, c.rejected)

def lastRule (communities : List String) (rules : List CommunityRule) (field : CommunityField) :
    Option CommunityRule :=
  (rules.filter fun rule => rule.set.field == field &&
    (matchLargeCommunity rule.largeCommunity communities).isSome).getLast?

def CommunityRule.text (rule : CommunityRule) (communities : List String) : String :=
  fieldValue rule.set ((matchLargeCommunity rule.largeCommunity communities).getD "")

theorem filter_ruleUses (communities : List String) (rules : List CommunityRule)
    (field : CommunityField) :
    (ruleUses communities rules).filter (fun u => u.field == field) =
      (rules.filter fun rule => rule.set.field == field &&
        (matchLargeCommunity rule.largeCommunity communities).isSome).map fun rule =>
          ⟨rule.set.field, rule.text communities⟩ := by
  induction rules with
  | nil => rfl
  | cons rule rules ih =>
    cases hm : matchLargeCommunity rule.largeCommunity communities with
    | none =>
      rw [ruleUses_cons_none hm, ih, List.filter_cons_of_neg]
      simp only [hm, Option.isSome_none, Bool.and_false, Bool.false_eq_true, not_false_eq_true]
    | some value =>
      rw [ruleUses_cons_some hm, List.filter_cons, List.filter_cons, ih]
      simp only [hm, Option.isSome_some, Bool.and_true]
      split
      · simp only [List.map_cons, CommunityRule.text, hm, Option.getD_some]
      · rfl

theorem lastText_ruleUses (communities : List String) (rules : List CommunityRule)
    (field : CommunityField) :
    lastText (ruleUses communities rules) field =
      (lastRule communities rules field).map fun rule => rule.text communities := by
  rw [lastText, filter_ruleUses, List.getLast?_map, Option.map_map, lastRule]
  rfl

theorem isSome_match_perm (h : communities'.Perm communities) (pattern : String) :
    (matchLargeCommunity pattern communities').isSome =
      (matchLargeCommunity pattern communities).isSome := by
  rw [Bool.eq_iff_iff, matchLargeCommunity_eq, matchLargeCommunity_eq, List.findSome?_isSome_iff,
    List.findSome?_isSome_iff]
  simp only [h.mem_iff]

theorem lastRule_perm (h : communities'.Perm communities) (rules : List CommunityRule)
    (field : CommunityField) :
    lastRule communities' rules field = lastRule communities rules field := by
  simp only [lastRule, isSome_match_perm h]

theorem map_eq_map_iff {o : Option α} {f g : α → β} :
    o.map f = o.map g ↔ ∀ a, o = some a → f a = g a := by
  cases o with
  | none => simp only [Option.map_none, reduceCtorEq, false_implies, implies_true]
  | some a => simp only [Option.map_some, Option.some.injEq, forall_eq']

theorem getD_map_eq_iff {o : Option α} {f g : α → β} (b : β) :
    (o.map f).getD b = (o.map g).getD b ↔ ∀ a, o = some a → f a = g a := by
  cases o with
  | none => simp only [Option.map_none, reduceCtorEq, false_implies, implies_true]
  | some a => simp only [Option.map_some, Option.getD_some, Option.some.injEq, forall_eq']

theorem outcome_eq_none_iff (hrej : r.rejected = false) (cm : Option CommunityMapSpec) :
    outcome (normalizeRoute r cm : Except String (BackendCandidate F)) = none ↔
      ¬ Decodable (communityRules cm) r.largeCommunities.elems := by
  have hok := normalizeRoute_ok_iff (F := F) r cm
  simp only [hrej, true_implies] at hok
  rw [← hok]
  cases normalizeRoute (F := F) r cm with
  | error e => simp only [outcome, reduceCtorEq, exists_false, not_false_eq_true]
  | ok c => simp only [outcome, reduceCtorEq, Except.ok.injEq, exists_eq', not_true_eq_false]

def RIBRoute.reordered (r : RIBRoute) (communities : GoSlice String) : RIBRoute :=
  { r with largeCommunities := communities }

theorem RIBRoute.reordered_med (r : RIBRoute) (communities : GoSlice String) :
    (r.reordered communities).med = r.med :=
  rfl

/-- Two orders of the communities that both decode differ at most by what the last rule for a
field has captured. -/
theorem outcome_eq_iff {cm : Option CommunityMapSpec} (hrej : r.rejected = false)
    (hp : s.elems.Perm r.largeCommunities.elems)
    (hd : Decodable (communityRules cm) r.largeCommunities.elems)
    (hd' : Decodable (communityRules cm) s.elems) :
    outcome (normalizeRoute (r.reordered s) cm : Except String (BackendCandidate F)) =
        outcome (normalizeRoute r cm : Except String (BackendCandidate F)) ↔
      ∀ field rule, lastRule r.largeCommunities.elems (communityRules cm) field = some rule →
        field.SameValue (rule.text s.elems) (rule.text r.largeCommunities.elems) := by
  obtain ⟨c, hc⟩ := (normalizeRoute_ok_iff (F := F) r cm).2 fun _ => hd
  obtain ⟨c', hc'⟩ :=
    (normalizeRoute_ok_iff (F := F) (r.reordered s) cm).2 fun _ => hd'
  have hdec := normalizeRoute_decoded hrej hc
  have hdec' : Decoded (ruleUses s.elems (communityRules cm)) cm (r.reordered s) c' :=
    normalizeRoute_decoded (r := r.reordered s) hrej hc'
  have hnil : ruleUses s.elems (communityRules cm) = [] ↔
      ruleUses r.largeCommunities.elems (communityRules cm) = [] := by
    simp only [ruleUses_eq_nil_iff, ← Option.not_isSome_iff_eq_none, isSome_match_perm hp]
  have hrejected : c'.rejected = c.rejected := by
    rw [Bool.eq_iff_iff, hdec.rejected, hdec'.rejected, hnil]
  rw [hc, hc']
  simp only [outcome, Option.some.injEq, Prod.mk.injEq, hrejected, and_true, hdec.weight,
    hdec'.weight, hdec.tier, hdec'.tier, hdec.drain, hdec'.drain, hdec.serviceTag,
    hdec'.serviceTag, RIBRoute.reordered_med, lastText_ruleUses, lastRule_perm hp,
    Option.map_map, map_eq_map_iff, getD_map_eq_iff, Function.comp_apply]
  constructor
  · rintro ⟨hweight, htier, hdrain, htag⟩ field rule hrule
    cases field with
    | weight => exact hweight rule hrule
    | tier => exact htier rule hrule
    | drain => exact hdrain rule hrule
    | serviceTag => exact htag rule hrule
    | other name => trivial
  · intro h
    exact ⟨h .weight, h .tier, h .drain, h .serviceTag⟩

end Outcome

section Order

/-- The rule matches the community and cannot read its field from it. -/
def CommunityRule.Chokes (rule : CommunityRule) (community : String) : Prop :=
  ∃ value, capture rule.largeCommunity community = some value ∧
    ¬ rule.set.field.Reads (fieldValue rule.set value)

/-- No order of the communities decodes: some rule matches, and every community it matches chokes
it, or, if it takes any value, chokes some rule. -/
def Hopeless (rules : List CommunityRule) (communities : List String) : Prop :=
  ∃ rule ∈ rules, (∃ c ∈ communities, (capture rule.largeCommunity c).isSome = true) ∧
    ∀ c ∈ communities, (capture rule.largeCommunity c).isSome = true →
      ∃ rule' ∈ rules, rule'.Chokes c ∧ (rule' = rule ∨ Wildcard rule.largeCommunity)

/-- Every order decodes, and to the same values: no community chokes a rule, and the last rule for
a field sets the same value from every community it matches. -/
structure Clear (rules : List CommunityRule) (communities : List String) : Prop where
  legible : ∀ rule ∈ rules, ∀ c ∈ communities, ¬ rule.Chokes c
  alike : ∀ field rule, lastRule communities rules field = some rule →
    ∀ c ∈ communities, ∀ c' ∈ communities, ∀ value value',
      capture rule.largeCommunity c = some value → capture rule.largeCommunity c' = some value' →
        field.SameValue (fieldValue rule.set value) (fieldValue rule.set value')

theorem Hopeless.not_decodable (h : Hopeless rules communities)
    (hp : communities'.Perm communities) : ¬ Decodable rules communities' := by
  intro hd
  obtain ⟨rule, hrule, ⟨c₀, hc₀, hsome⟩, hchoke⟩ := h
  have hmatch : (communities'.findSome? (capture rule.largeCommunity)).isSome = true :=
    List.findSome?_isSome_iff.2 ⟨c₀, hp.mem_iff.2 hc₀, hsome⟩
  obtain ⟨value, hvalue⟩ := Option.isSome_iff_exists.1 hmatch
  obtain ⟨c, hc, hcap⟩ := List.exists_of_findSome?_eq_some hvalue
  obtain ⟨rule', hrule', ⟨value', hcap', hunread⟩, hwhich⟩ :=
    hchoke c (hp.mem_iff.1 hc) (Option.isSome_of_eq_some hcap)
  -- in this order too, the rule that the community chokes captures that value
  suffices hfirst : communities'.findSome? (capture rule'.largeCommunity) = some value' by
    rw [← matchLargeCommunity_eq] at hfirst
    exact hunread (hd rule' hrule' value' hfirst)
  have hsame := capture_value hcap hcap'
  subst hsame
  rcases hwhich with rfl | hw
  · exact hvalue
  · by_cases hw' : Wildcard rule'.largeCommunity
    · rw [← capture_congr (capture_wildcard hw hw' hcap hcap')]
      exact hvalue
    · obtain ⟨v, hv⟩ := Option.isSome_iff_exists.1
        (List.findSome?_isSome_iff.2 ⟨c, hc, Option.isSome_of_eq_some hcap'⟩)
      obtain ⟨d, _, hd'⟩ := List.exists_of_findSome?_eq_some hv
      rw [hv, capture_exact hw' hd' hcap']

theorem hopeless_of_not_decodable
    (h : ∀ communities', communities'.Perm communities → ¬ Decodable rules communities') :
    Hopeless rules communities := by
  classical
  let good : String → Bool := fun c => decide (∀ rule ∈ rules, ¬ rule.Chokes c)
  have hnot := h _ (List.filter_append_perm good communities)
  simp only [Decodable, not_forall] at hnot
  obtain ⟨rule, hrule, value, hvalue, hunread⟩ := hnot
  rw [Option.mem_def, matchLargeCommunity_eq, List.findSome?_append] at hvalue
  have hgood : (communities.filter good).findSome? (capture rule.largeCommunity) = none := by
    by_contra hsome
    obtain ⟨v, hv⟩ := Option.ne_none_iff_exists'.1 hsome
    rw [hv, Option.some_or, Option.some.injEq] at hvalue
    subst hvalue
    obtain ⟨c, hc, hcap⟩ := List.exists_of_findSome?_eq_some hv
    exact of_decide_eq_true (List.mem_filter.1 hc).2 rule hrule ⟨v, hcap, hunread⟩
  rw [hgood, Option.none_or] at hvalue
  obtain ⟨c, hc, hcap⟩ := List.exists_of_findSome?_eq_some hvalue
  have hmem := (List.mem_filter.1 hc).1
  refine ⟨rule, hrule, ⟨c, hmem, Option.isSome_of_eq_some hcap⟩, ?_⟩
  intro c' hc' hsome
  by_cases hw : Wildcard rule.largeCommunity
  · have hbad : good c' ≠ true := by
      intro hg
      have hnone := List.findSome?_eq_none_iff.1 hgood c' (List.mem_filter.2 ⟨hc', hg⟩)
      rw [hnone] at hsome
      cases hsome
    have hex : ∃ rule' ∈ rules, rule'.Chokes c' := by
      by_contra hno
      apply hbad
      apply decide_eq_true
      intro rule' hrule' hchoke
      exact hno ⟨rule', hrule', hchoke⟩
    obtain ⟨rule', hrule', hchoke⟩ := hex
    exact ⟨rule', hrule', hchoke, .inr hw⟩
  · obtain ⟨v, hv⟩ := Option.isSome_iff_exists.1 hsome
    have he := capture_exact hw hcap hv
    subst he
    exact ⟨rule, hrule, ⟨value, hv, hunread⟩, .inl rfl⟩

theorem Clear.decodable (h : Clear rules communities) (hp : communities'.Perm communities) :
    Decodable rules communities' := by
  intro rule hrule value hvalue
  rw [Option.mem_def, matchLargeCommunity_eq] at hvalue
  obtain ⟨c, hc, hcap⟩ := List.exists_of_findSome?_eq_some hvalue
  by_contra hunread
  exact h.legible rule hrule c (hp.mem_iff.1 hc) ⟨value, hcap, hunread⟩

theorem match_cons (h : capture pattern c = some value) (communities : List String) :
    matchLargeCommunity pattern (c :: communities) = some value := by
  rw [matchLargeCommunity_eq, List.findSome?_cons, h]

theorem CommunityField.SameValue.symm {field : CommunityField} (h : field.SameValue t t') :
    field.SameValue t' t := by
  cases field with
  | weight => exact Eq.symm h
  | tier => exact Eq.symm h
  | drain => exact Eq.symm h
  | serviceTag => exact Eq.symm h
  | other name => trivial

theorem CommunityField.SameValue.trans {field : CommunityField} (h : field.SameValue t t')
    (h' : field.SameValue t' t'') : field.SameValue t t'' := by
  cases field with
  | weight => exact Eq.trans h h'
  | tier => exact Eq.trans h h'
  | drain => exact Eq.trans h h'
  | serviceTag => exact Eq.trans h h'
  | other name => trivial

variable {F : Type} {r : RIBRoute} {cm : Option CommunityMapSpec}

theorem clear_of_agree (hrej : r.rejected = false)
    (hd : Decodable (communityRules cm) r.largeCommunities.elems)
    (hall : ∀ s : GoSlice String, s.elems.Perm r.largeCommunities.elems →
      outcome (normalizeRoute (r.reordered s) cm : Except String (BackendCandidate F)) =
        outcome (normalizeRoute r cm : Except String (BackendCandidate F))) :
    Clear (communityRules cm) r.largeCommunities.elems := by
  have hdecodes : ∀ s : GoSlice String, s.elems.Perm r.largeCommunities.elems →
      Decodable (communityRules cm) s.elems := by
    intro s hp
    by_contra hnot
    have hnone := (outcome_eq_none_iff (F := F) (r := r.reordered s) hrej cm).2
      hnot
    rw [hall s hp, outcome_eq_none_iff hrej] at hnone
    exact hnone hd
  have hfront : ∀ c ∈ r.largeCommunities.elems,
      (c :: r.largeCommunities.elems.erase c).Perm r.largeCommunities.elems :=
    fun c hc => (List.perm_cons_erase hc).symm
  constructor
  · rintro rule hrule c hc ⟨value, hcap, hunread⟩
    exact hunread (hdecodes (.made _) (hfront c hc) rule hrule value (match_cons hcap _))
  · intro field rule hrule c hc c' hc' value value' hcap hcap'
    have htext : ∀ c ∈ r.largeCommunities.elems, ∀ value,
        capture rule.largeCommunity c = some value →
          field.SameValue (fieldValue rule.set value) (rule.text r.largeCommunities.elems) := by
      intro c hc value hcap
      have hp : (GoSlice.made (c :: r.largeCommunities.elems.erase c)).elems.Perm
          r.largeCommunities.elems := hfront c hc
      have hsame := (outcome_eq_iff hrej hp hd (hdecodes _ hp)).1 (hall _ hp) field rule hrule
      rw [CommunityRule.text, GoSlice.elems, match_cons hcap, Option.getD_some] at hsame
      exact hsame
    exact (htext c hc value hcap).trans (htext c' hc' value' hcap').symm

theorem Clear.agree (h : Clear (communityRules cm) r.largeCommunities.elems)
    (hrej : r.rejected = false) (hp : s.elems.Perm r.largeCommunities.elems) :
    outcome (normalizeRoute (r.reordered s) cm : Except String (BackendCandidate F)) =
      outcome (normalizeRoute r cm : Except String (BackendCandidate F)) := by
  rw [outcome_eq_iff hrej hp (h.decodable (.refl _)) (h.decodable hp)]
  intro field rule hrule
  have hsome := List.mem_of_getLast? hrule
  rw [List.mem_filter, Bool.and_eq_true] at hsome
  obtain ⟨value, hvalue⟩ := Option.isSome_iff_exists.1 hsome.2.2
  obtain ⟨value', hvalue'⟩ := Option.isSome_iff_exists.1
    ((isSome_match_perm hp rule.largeCommunity).trans hsome.2.2)
  rw [CommunityRule.text, CommunityRule.text, hvalue, hvalue', Option.getD_some, Option.getD_some]
  rw [matchLargeCommunity_eq] at hvalue hvalue'
  obtain ⟨c, hc, hcap⟩ := List.exists_of_findSome?_eq_some hvalue
  obtain ⟨c', hc', hcap'⟩ := List.exists_of_findSome?_eq_some hvalue'
  exact h.alike field rule hrule c' (hp.mem_iff.1 hc') c hc value' value hcap' hcap

/-- The order of a route's communities does not matter exactly if no order decodes, or all of them
do and every community a last rule could capture gives the same value. -/
theorem normalizeRoute_order_iff (r : RIBRoute) (cm : Option CommunityMapSpec) :
    (∀ s : GoSlice String, s.elems.Perm r.largeCommunities.elems →
      outcome (normalizeRoute (r.reordered s) cm : Except String (BackendCandidate F)) =
        outcome (normalizeRoute r cm : Except String (BackendCandidate F))) ↔
      r.rejected = true ∨ Hopeless (communityRules cm) r.largeCommunities.elems ∨
        Clear (communityRules cm) r.largeCommunities.elems := by
  cases hrej : r.rejected with
  | true =>
    simp only [true_or, iff_true]
    intro s _
    have hrej' : (r.reordered s).rejected = true := hrej
    simp only [normalizeRoute, hrej, hrej', ↓reduceIte]
    rfl
  | false =>
    simp only [Bool.false_eq_true, false_or]
    constructor
    · intro hall
      by_cases hd : Decodable (communityRules cm) r.largeCommunities.elems
      · exact .inr (clear_of_agree hrej hd hall)
      · apply Or.inl
        apply hopeless_of_not_decodable
        intro communities' hp
        have hnone := (outcome_eq_none_iff (F := F) hrej cm).2 hd
        rw [← hall (.made communities') hp] at hnone
        exact (outcome_eq_none_iff (F := F) (r := r.reordered (.made communities'))
          hrej cm).1 hnone
    · rintro (hno | hclear) s hp
      · rw [(outcome_eq_none_iff hrej cm).2 (hno.not_decodable (.refl _))]
        exact (outcome_eq_none_iff (r := r.reordered s) hrej cm).2
          (hno.not_decodable hp)
      · exact hclear.agree hrej hp

end Order

/-- Two communities for one wildcard: the weight is that of whichever comes first. -/
theorem normalizeRoute_reordered :
    ∃ s : GoSlice String,
      s.elems.Perm (taggedRoute [⟨64512, 1, 10⟩, ⟨64512, 1, 20⟩]).largeCommunities.elems ∧
      outcome (normalizeRoute (taggedRoute [⟨64512, 1, 10⟩, ⟨64512, 1, 20⟩]) (some weightMap) :
        Except String (BackendCandidate Unit)) = some (10, "", false, none, false) ∧
      outcome (normalizeRoute ((taggedRoute [⟨64512, 1, 10⟩, ⟨64512, 1, 20⟩]).reordered s)
        (some weightMap) : Except String (BackendCandidate Unit)) =
          some (20, "", false, none, false) :=
  ⟨decodeLargeCommunities [⟨64512, 1, 20⟩, ⟨64512, 1, 10⟩], .swap _ _ [], by decide +kernel,
    by decide +kernel⟩

end Kreg
