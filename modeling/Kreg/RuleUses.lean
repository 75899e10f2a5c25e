import Kreg.Decoding

namespace Kreg
set_option autoImplicit true

structure FieldUse where
  field : CommunityField
  text : String
deriving DecidableEq

def ruleUses (communities : List String) (rules : List CommunityRule) : List FieldUse :=
  rules.filterMap fun rule => (matchLargeCommunity rule.largeCommunity communities).map fun value =>
    ⟨rule.set.field, fieldValue rule.set value⟩

def lastText (uses : List FieldUse) (field : CommunityField) : Option String :=
  ((uses.filter fun u => u.field == field).getLast?).map FieldUse.text

def int32Of (text : String) : Int32 :=
  match parseInt text with
  | .ok n => Int32.ofInt n
  | .error _ => 0

def boolOf (text : String) : Bool :=
  match parseBool text with
  | .ok b => b
  | .error _ => false

theorem lastText_cons (u : FieldUse) (uses : List FieldUse) (field : CommunityField) :
    lastText (u :: uses) field = (lastText uses field).or (lastText [u] field) := by
  simp only [lastText, List.filter_cons, List.filter_nil]
  split
  · rw [List.getLast?_cons]
    cases (uses.filter fun u => u.field == field).getLast? <;> rfl
  · cases (uses.filter fun u => u.field == field).getLast? <;> rfl

theorem lastText_eq_none_iff {uses : List FieldUse} :
    lastText uses field = none ↔ (uses.any fun u => u.field == field) = false := by
  rw [lastText, Option.map_eq_none_iff, List.getLast?_eq_none_iff, List.filter_eq_nil_iff,
    List.any_eq_false]

theorem ruleUses_nil (communities : List String) : ruleUses communities [] = [] :=
  rfl

theorem ruleUses_cons_none {rule : CommunityRule}
    (h : matchLargeCommunity rule.largeCommunity communities = none) (rules : List CommunityRule) :
    ruleUses communities (rule :: rules) = ruleUses communities rules := by
  apply List.filterMap_cons_none
  rw [h, Option.map_none]

theorem ruleUses_cons_some {rule : CommunityRule}
    (h : matchLargeCommunity rule.largeCommunity communities = some value)
    (rules : List CommunityRule) :
    ruleUses communities (rule :: rules) =
      ⟨rule.set.field, fieldValue rule.set value⟩ :: ruleUses communities rules := by
  apply List.filterMap_cons_some
  rw [h, Option.map_some]

theorem ruleUses_eq_nil_iff {communities : List String} {rules : List CommunityRule} :
    ruleUses communities rules = [] ↔
      ∀ rule ∈ rules, matchLargeCommunity rule.largeCommunity communities = none := by
  simp only [ruleUses, List.filterMap_eq_nil_iff, Option.map_eq_none_iff]

theorem decodable_iff (rules : List CommunityRule) (communities : List String) :
    Decodable rules communities ↔ ∀ u ∈ ruleUses communities rules, u.field.Reads u.text := by
  constructor
  · intro h u hu
    obtain ⟨rule, hrule, hsome⟩ := List.mem_filterMap.1 hu
    obtain ⟨value, hvalue, rfl⟩ := Option.map_eq_some_iff.1 hsome
    exact h rule hrule value hvalue
  · intro h rule hrule value hvalue
    apply h ⟨rule.set.field, fieldValue rule.set value⟩
    apply List.mem_filterMap.2
    exact ⟨rule, hrule, Option.map_eq_some_iff.2 ⟨value, hvalue, rfl⟩⟩

section Loop

variable {F : Type}

/-- Every field set by its last use; one without a use stays as it is. -/
def BackendCandidate.setBy (uses : List FieldUse) (c : BackendCandidate F) : BackendCandidate F :=
  { c with
    weight := ((lastText uses .weight).map int32Of).getD c.weight
    tier := (lastText uses .tier).getD c.tier
    drain := ((lastText uses .drain).map boolOf).getD c.drain
    serviceTag := ((lastText uses .serviceTag).map fun text => some (int32Of text)).getD
      c.serviceTag }

theorem setBy_cons (u : FieldUse) (uses : List FieldUse) (c : BackendCandidate F) :
    c.setBy (u :: uses) = (c.setBy [u]).setBy uses := by
  simp only [BackendCandidate.setBy, lastText_cons u uses, Option.map_or, Option.getD_or]

theorem applyFieldSet_eq {c c' : BackendCandidate F} {set : CommunityFieldSet}
    (h : applyFieldSet c set value = .ok c') :
    c' = c.setBy [⟨set.field, fieldValue set value⟩] := by
  rw [applyFieldSet] at h
  cases hf : set.field with
  | weight =>
    cases hn : parseInt (fieldValue set value) with
    | error e => simp only [hf, hn, reduceCtorEq] at h
    | ok n =>
      have hread : int32Of (fieldValue set value) = Int32.ofInt n := by rw [int32Of, hn]
      simp only [hf, hn, ← hread, Except.ok.injEq] at h
      exact h.symm
  | tier =>
    simp only [hf, Except.ok.injEq] at h
    exact h.symm
  | drain =>
    cases hn : parseBool (fieldValue set value) with
    | error e => simp only [hf, hn, reduceCtorEq] at h
    | ok b =>
      have hread : boolOf (fieldValue set value) = b := by rw [boolOf, hn]
      simp only [hf, hn, ← hread, Except.ok.injEq] at h
      exact h.symm
  | serviceTag =>
    cases hn : parseInt (fieldValue set value) with
    | error e => simp only [hf, hn, reduceCtorEq] at h
    | ok n =>
      have hread : int32Of (fieldValue set value) = Int32.ofInt n := by rw [int32Of, hn]
      simp only [hf, hn, ← hread, Except.ok.injEq] at h
      exact h.symm
  | other name => simp only [hf, reduceCtorEq] at h

/-- What the rule loop computes, when it comes to its end. -/
theorem applyRules_uses {c : BackendCandidate F}
    (h : applyRules communities rules c matched weightSet = .ok p) :
    p = (c.setBy (ruleUses communities rules), matched || !(ruleUses communities rules).isEmpty,
      weightSet || (ruleUses communities rules).any fun u => u.field == .weight) := by
  induction rules generalizing c matched weightSet with
  | nil =>
    cases h
    simp only [ruleUses_nil, List.isEmpty_nil, Bool.not_true, Bool.or_false, List.any_nil]
    rfl
  | cons rule rules ih =>
    simp only [applyRules] at h
    cases hm : matchLargeCommunity rule.largeCommunity communities with
    | none =>
      rw [hm] at h
      rw [ruleUses_cons_none hm]
      exact ih h
    | some value =>
      simp only [hm] at h
      cases hset : applyFieldSet c rule.set value with
      | error e =>
        rw [hset] at h
        cases h
      | ok c' =>
        rw [hset] at h
        rw [ruleUses_cons_some hm, setBy_cons, ← applyFieldSet_eq hset, ih h, List.any_cons,
          Bool.or_assoc]
        simp only [Bool.true_or, List.isEmpty_cons, Bool.not_false, Bool.or_true]

structure Decoded (uses : List FieldUse) (cm : Option CommunityMapSpec) (r : RIBRoute)
    (c : BackendCandidate F) : Prop where
  weight : c.weight = ((lastText uses .weight).map int32Of).getD (fallbackWeight r.med cm)
  tier : c.tier = (lastText uses .tier).getD ""
  drain : c.drain = ((lastText uses .drain).map boolOf).getD false
  serviceTag : c.serviceTag = (lastText uses .serviceTag).map int32Of
  rejected : c.rejected = true ↔
    cm.map CommunityMapSpec.onUnmappedCommunity = some .reject ∧ uses = []
  reason : c.reason =
    if uses = [] ∧ (cm.map CommunityMapSpec.onUnmappedCommunity = some .reject ∨
        cm.map CommunityMapSpec.onUnmappedCommunity = some .warn) then
      unmappedReason r.largeCommunities.elems
    else ""
  pfx : c.pfx = r.pfx
  clusterID : c.clusterID = r.clusterID
  peer : c.peer = r.peer
  locality : c.locality = r.locality
  med : c.med = r.med
  asPath : c.asPath = r.asPath
  largeCommunities : c.largeCommunities = r.largeCommunities
  undamped : c.damping = none

theorem flagUnmapped_rejected (c : BackendCandidate F) (cm : Option CommunityMapSpec) :
    (flagUnmapped c cm).rejected = true ↔
      cm.map CommunityMapSpec.onUnmappedCommunity = some .reject ∨ c.rejected = true := by
  cases cm with
  | none => simp only [flagUnmapped, Option.map_none, reduceCtorEq, false_or]
  | some cm =>
    simp only [flagUnmapped, Option.map_some, Option.some.injEq]
    cases cm.onUnmappedCommunity <;> simp

theorem flagUnmapped_reason (c : BackendCandidate F) (cm : Option CommunityMapSpec) :
    (flagUnmapped c cm).reason =
      if cm.map CommunityMapSpec.onUnmappedCommunity = some .reject ∨
          cm.map CommunityMapSpec.onUnmappedCommunity = some .warn then
        unmappedReason c.largeCommunities.elems
      else c.reason := by
  cases cm with
  | none => simp only [flagUnmapped, Option.map_none, reduceCtorEq, or_self, ↓reduceIte]
  | some cm =>
    simp only [flagUnmapped, Option.map_some, Option.some.injEq]
    cases cm.onUnmappedCommunity <;> simp

theorem flagUnmapped_eq (c : BackendCandidate F) (cm : Option CommunityMapSpec) :
    flagUnmapped c cm = { c with
      rejected := (flagUnmapped c cm).rejected, reason := (flagUnmapped c cm).reason } := by
  cases cm with
  | none => rfl
  | some cm =>
    rw [flagUnmapped]
    cases cm.onUnmappedCommunity <;> rfl

theorem weight_of_fallback (uses : List FieldUse) (c : BackendCandidate F) (fallback : Int32) :
    (if (uses.any fun u => u.field == .weight) = true then c.setBy uses
      else { c.setBy uses with weight := fallback }) =
      { c.setBy uses with weight := ((lastText uses .weight).map int32Of).getD fallback } := by
  split
  · next h =>
    cases hl : lastText uses .weight with
    | none =>
      rw [lastText_eq_none_iff.1 hl] at h
      cases h
    | some text => simp only [BackendCandidate.setBy, hl, Option.map_some, Option.getD_some]
  · next h =>
    rw [Bool.not_eq_true] at h
    rw [lastText_eq_none_iff.2 h, Option.map_none, Option.getD_none]

theorem normalizeRoute_decoded {c : BackendCandidate F} (hrej : r.rejected = false)
    (h : normalizeRoute r cm = .ok c) :
    Decoded (ruleUses r.largeCommunities.elems (communityRules cm)) cm r c := by
  rw [normalizeRoute, hrej, ← communityRules] at h
  simp only [Bool.false_eq_true, ↓reduceIte] at h
  cases hrules : applyRules r.largeCommunities.elems (communityRules cm)
      (r.candidate : BackendCandidate F) false false with
  | error e => simp only [hrules, reduceCtorEq] at h
  | ok p =>
    have hp := applyRules_uses hrules
    subst hp
    generalize ruleUses r.largeCommunities.elems (communityRules cm) = uses at h hrules ⊢
    simp only [hrules, Bool.false_or, weight_of_fallback, Except.ok.injEq] at h
    have htag : ((lastText uses .serviceTag).map fun text => some (int32Of text)).getD none =
        (lastText uses .serviceTag).map int32Of := by
      cases lastText uses .serviceTag <;> rfl
    cases uses with
    | nil =>
      simp only [List.isEmpty_nil, Bool.not_true, Bool.false_eq_true, ↓reduceIte] at h
      subst h
      rw [flagUnmapped_eq]
      refine ⟨rfl, rfl, rfl, rfl, (flagUnmapped_rejected _ _).trans ?_,
        (flagUnmapped_reason _ _).trans ?_, rfl, rfl, rfl, rfl, rfl, rfl, rfl, rfl⟩
      · simp only [and_true, or_iff_left_iff_imp]
        intro hf
        cases hf
      · simp only [true_and]
        rfl
    | cons u uses =>
      simp only [List.isEmpty_cons, Bool.not_false, ↓reduceIte] at h
      subst h
      refine ⟨rfl, rfl, rfl, htag, ?_, ?_, rfl, rfl, rfl, rfl, rfl, rfl, rfl, rfl⟩
      · simp only [reduceCtorEq, and_false, iff_false]
        exact Bool.false_ne_true
      · simp only [reduceCtorEq, false_and, ↓reduceIte]
        rfl

end Loop

end Kreg
