import Kreg.RoundTrip
import Kreg.Transition

namespace Kreg
open Float64
set_option autoImplicit true

variable {F : Type}

/-- This tick's candidate for a key, if there is one the damper will evaluate. -/
def present (candidates : List (BackendCandidate F)) (k : String) : Option (BackendCandidate F) :=
  candidates.find? fun c => !c.rejected && c.name == k

def WellKeyed (prior : GoMap (PriorState F)) : Prop :=
  ∀ k p, prior.lookup k = some p → p.candidate.name = k ∧ p.candidate.rejected = false

theorem mem_seen (candidates : List (BackendCandidate F)) (k : String) :
    k ∈ seen candidates ↔ ∃ c ∈ candidates, c.rejected = false ∧ c.name = k := by
  simp only [seen, List.mem_map, List.mem_filter, Bool.not_eq_true']
  constructor
  · rintro ⟨c, ⟨hc, hr⟩, hk⟩
    exact ⟨c, hc, hr, hk⟩
  · rintro ⟨c, hc, hr, hk⟩
    exact ⟨c, ⟨hc, hr⟩, hk⟩

theorem present_eq_some {candidates : List (BackendCandidate F)}
    (h : present candidates k = some c) : c ∈ candidates ∧ c.rejected = false ∧ c.name = k := by
  have hp := List.find?_some h
  rw [Bool.and_eq_true, Bool.not_eq_true', beq_iff_eq] at hp
  exact ⟨List.mem_of_find?_eq_some h, hp⟩

theorem present_eq_none {candidates : List (BackendCandidate F)}
    (h : present candidates k = none) : k ∉ seen candidates := by
  rw [mem_seen]
  rintro ⟨c, hc, hr, hk⟩
  have hp := List.find?_eq_none.1 h c hc
  rw [hr, hk, beq_self_eq_true] at hp
  exact hp rfl

theorem present_isSome (candidates : List (BackendCandidate F)) (k : String) :
    (present candidates k).isSome = true ↔
      ∃ c ∈ candidates, c.rejected = false ∧ c.name = k := by
  cases h : present candidates k with
  | none =>
    rw [← mem_seen]
    exact ⟨fun h' => (Bool.false_ne_true h').elim, fun h' => (present_eq_none h h').elim⟩
  | some c => exact ⟨fun _ => ⟨c, present_eq_some h⟩, fun _ => rfl⟩

theorem filter_name_of_mem {candidates : List (BackendCandidate F)}
    (hn : (candidates.map BackendCandidate.name).Nodup) (hc : c ∈ candidates) :
    candidates.filter (fun a => a.name == c.name) = [c] := by
  induction candidates with
  | nil => cases hc
  | cons a rest ih =>
    rw [List.map_cons, List.nodup_cons] at hn
    rcases List.mem_cons.1 hc with he | hc
    · subst he
      have hrest : rest.filter (fun a => a.name == c.name) = [] := by
        rw [List.filter_eq_nil_iff]
        intro b hb hbc
        rw [beq_iff_eq] at hbc
        exact hn.1 (hbc ▸ List.mem_map_of_mem hb)
      simp only [List.filter_cons, beq_self_eq_true, ↓reduceIte, hrest]
    · rw [List.filter_cons_of_neg, ih hn.2 hc]
      rw [beq_iff_eq]
      intro he
      exact hn.1 (he ▸ List.mem_map_of_mem hc)

theorem filter_synthesized {g : PriorState F → Option (BackendCandidate F)}
    (hg : ∀ p c, g p = some c → c.name = p.candidate.name)
    (l : List (Sigma fun _ : String => PriorState F)) (hl : l.NodupKeys)
    (hw : ∀ e ∈ l, e.2.candidate.name = e.1) (skip : List String) (k : String) :
    (l.filterMap fun e => if e.1 ∈ skip then none else g e.2).filter (fun c => c.name == k) =
      if k ∈ skip then [] else ((l.dlookup k).bind g).toList := by
  induction l with
  | nil => simp only [List.filterMap_nil, List.filter_nil, List.dlookup_nil, Option.bind_none,
      Option.toList_none, ite_self]
  | cons e l ih =>
    have hi := ih (List.nodupKeys_cons.1 hl).2 fun e he => hw e (.tail _ he)
    have hname : ∀ c, g e.2 = some c → c.name = e.1 := fun c hc =>
      (hg _ _ hc).trans (hw e (.head _))
    rw [List.filterMap_cons]
    by_cases hek : e.1 = k
    · subst hek
      have hnone : l.dlookup e.1 = none := List.dlookup_eq_none.2 (List.nodupKeys_cons.1 hl).1
      rw [hnone] at hi
      simp only [Option.bind_none, Option.toList_none, ite_self] at hi
      rw [List.dlookup_cons_eq, Option.bind_some]
      by_cases hs : e.1 ∈ skip
      · simp only [hs, ↓reduceIte, hi]
      · cases hc : g e.2 with
        | none => simp only [hs, ↓reduceIte, hi, Option.toList_none]
        | some c =>
          simp only [hs, ↓reduceIte, List.filter_cons, hname c hc, beq_self_eq_true, hi,
            Option.toList_some]
    · rw [List.dlookup_cons_ne _ _ (Ne.symm hek)]
      by_cases hs : e.1 ∈ skip
      · simp only [hs, ↓reduceIte, hi]
      · cases hc : g e.2 with
        | none => simp only [hs, ↓reduceIte, hi]
        | some c =>
          have hne : (c.name == k) = false := by
            rw [hname c hc, beq_eq_false_iff_ne]
            exact hek
          simp only [hs, ↓reduceIte, List.filter_cons, hne, Bool.false_eq_true, hi]

variable [Float64 F]

@[simp] theorem evaluateCandidate_name (now : Time) (prior : GoMap (PriorState F))
    (cfg : BGPStabilityConfigSpec) (c : BackendCandidate F) :
    (evaluateCandidate now prior cfg c).name = c.name := by
  rw [evaluateCandidate]
  split <;> rfl

theorem getElem?_evaluate (now : Time) (prior : GoMap (PriorState F))
    (cfg : BGPStabilityConfigSpec) {candidates : List (BackendCandidate F)} {i : Nat}
    (h : candidates[i]? = some c) :
    (evaluate now candidates prior cfg)[i]? = some (evaluateCandidate now prior cfg c) := by
  obtain ⟨hi, _⟩ := List.getElem?_eq_some_iff.1 h
  have hi' : i < (candidates.map (evaluateCandidate now prior cfg)).length := by
    rw [List.length_map]
    exact hi
  rw [evaluate, List.getElem?_append_left hi', List.getElem?_map, h]
  rfl

theorem evaluateCandidate_undo (now : Time) (prior : GoMap (PriorState F))
    (cfg : BGPStabilityConfigSpec) {c : BackendCandidate F} (h : c.damping = none) :
    { evaluateCandidate now prior cfg c with damping := none } = c := by
  cases c
  simp only at h
  subst h
  rw [evaluateCandidate]
  split <;> rfl

/-- The three ways a candidate gets into the output: a rejected one passed through, one of this
tick evaluated, one synthesized from the record of a key that is not here. -/
inductive Emits (now : Time) (candidates : List (BackendCandidate F))
    (prior : GoMap (PriorState F)) (cfg : BGPStabilityConfigSpec) : BackendCandidate F → Prop where
  | passed (hc : c ∈ candidates) (hr : c.rejected = true) : Emits now candidates prior cfg c
  | evaluated (hc : c ∈ candidates) (hr : c.rejected = false)
      (ht : Transition now cfg ((prior.lookup c.name).map PriorState.damping) true d) :
      Emits now candidates prior cfg { c with damping := some d }
  | synthesized (hp : prior.lookup k = some p) (hk : k ∉ seen candidates)
      (ht : Transition now cfg (some p.damping) false d) :
      Emits now candidates prior cfg { p.candidate with damping := some d }

theorem mem_evaluate {candidates : List (BackendCandidate F)} {prior : GoMap (PriorState F)}
    (h : c ∈ evaluate now candidates prior cfg) : Emits now candidates prior cfg c := by
  rcases List.mem_append.1 h with h | h
  · obtain ⟨c₀, hc, rfl⟩ := List.mem_map.1 h
    rw [evaluateCandidate]
    split
    · next hr => exact .passed hc hr
    · next hr =>
      rw [Bool.not_eq_true] at hr
      exact .evaluated hc hr (evaluatePresent_transition now cfg _)
  · obtain ⟨e, he, hs⟩ := List.mem_filterMap.1 h
    by_cases hk : e.1 ∈ seen candidates
    · rw [if_pos hk] at hs
      cases hs
    · rw [if_neg hk] at hs
      obtain ⟨d, hd, rfl⟩ := Option.map_eq_some_iff.1 hs
      obtain ⟨hp, hg, rfl⟩ := absentDamping_eq_some_iff.1 hd
      exact .synthesized (AList.mem_lookup_iff.2 he) hk (.held hp hg)

theorem Emits.mem {candidates : List (BackendCandidate F)} {prior : GoMap (PriorState F)}
    (h : Emits now candidates prior cfg c) : c ∈ evaluate now candidates prior cfg := by
  cases h with
  | passed hc hr =>
    refine List.mem_append_left _ (List.mem_map.2 ⟨c, hc, ?_⟩)
    rw [evaluateCandidate, if_pos hr]
  | @evaluated c _ hc hr ht =>
    refine List.mem_append_left _ (List.mem_map.2 ⟨c, hc, ?_⟩)
    rw [evaluateCandidate, if_neg (by rw [hr]; exact Bool.false_ne_true)]
    have hv := ht.verdict_eq
    exact congrArg (fun d => { c with damping := d }) hv
  | @synthesized k p d hp hk ht =>
    refine List.mem_append_right _ (List.mem_filterMap.2 ⟨⟨k, p⟩, AList.mem_lookup_iff.1 hp, ?_⟩)
    rw [if_neg hk]
    exact Option.map_eq_some_iff.2 ⟨d, ht.verdict_eq, rfl⟩

/-- What the damper says about one key: the view of `evaluate` that the other keys cannot
influence. -/
def emission (now : Time) (candidates : List (BackendCandidate F)) (prior : GoMap (PriorState F))
    (cfg : BGPStabilityConfigSpec) (k : String) : Option (BackendCandidate F) :=
  match present candidates k with
  | some c => some (evaluateCandidate now prior cfg c)
  | none => (prior.lookup k).bind fun p =>
      evaluateAbsent now p (durationOrZero cfg.withdrawalGrace) cfg.dampening

theorem evaluateAbsent_eq_some {p : PriorState F} {grace : Duration}
    {dampening : Option DampeningConfig} (h : evaluateAbsent now p grace dampening = some c) :
    ∃ d, c = { p.candidate with damping := some d } := by
  obtain ⟨d, _, rfl⟩ := Option.map_eq_some_iff.1 h
  exact ⟨d, rfl⟩

theorem evaluateAbsent_name {p : PriorState F} {grace : Duration}
    {dampening : Option DampeningConfig} (h : evaluateAbsent now p grace dampening = some c) :
    c.name = p.candidate.name := by
  obtain ⟨d, rfl⟩ := evaluateAbsent_eq_some h
  rfl

theorem emission_damping (now : Time) (candidates : List (BackendCandidate F))
    (prior : GoMap (PriorState F)) (cfg : BGPStabilityConfigSpec) (k : String) :
    (emission now candidates prior cfg k).bind BackendCandidate.damping =
      verdict now cfg ((prior.lookup k).map PriorState.damping) (present candidates k).isSome := by
  rw [emission]
  cases h : present candidates k with
  | some c =>
    obtain ⟨_, hr, rfl⟩ := present_eq_some h
    simp only [evaluateCandidate, hr, Bool.false_eq_true, ↓reduceIte]
    rfl
  | none =>
    cases prior.lookup k with
    | none => rfl
    | some p =>
      simp only [Option.bind_some, evaluateAbsent]
      change (Option.map _ (absentDamping now p.damping (durationOrZero cfg.withdrawalGrace)
        cfg.dampening)).bind _ = absentDamping now p.damping _ _
      cases absentDamping now p.damping (durationOrZero cfg.withdrawalGrace) cfg.dampening <;> rfl

theorem emission_cases {candidates : List (BackendCandidate F)} {prior : GoMap (PriorState F)}
    (h : emission now candidates prior cfg k = some c) :
    ∃ d, c.damping = some d ∧
      Transition now cfg ((prior.lookup k).map PriorState.damping)
        (present candidates k).isSome d ∧
      ((∃ a, present candidates k = some a ∧ c = { a with damping := some d }) ∨
        present candidates k = none ∧
          ∃ p, prior.lookup k = some p ∧ c = { p.candidate with damping := some d }) := by
  rw [emission] at h
  cases hc : present candidates k with
  | some a =>
    obtain ⟨_, hr, rfl⟩ := present_eq_some hc
    have hne : ¬ a.rejected = true := by
      rw [hr]
      exact Bool.false_ne_true
    simp only [hc, evaluateCandidate, if_neg hne] at h
    cases h
    exact ⟨_, rfl, evaluatePresent_transition now cfg _, .inl ⟨a, rfl, rfl⟩⟩
  | none =>
    rw [hc] at h
    obtain ⟨p, hp, he⟩ := Option.bind_eq_some_iff.1 h
    obtain ⟨d, hd, rfl⟩ := Option.map_eq_some_iff.1 he
    obtain ⟨hs, hg, rfl⟩ := absentDamping_eq_some_iff.1 hd
    rw [hp]
    exact ⟨_, rfl, .held hs hg, .inr ⟨rfl, p, rfl, rfl⟩⟩

theorem emission_eq_some {prior : GoMap (PriorState F)} (hp : WellKeyed prior)
    {candidates : List (BackendCandidate F)} (h : emission now candidates prior cfg k = some c) :
    c.name = k ∧ c.rejected = false ∧ ∃ d, c.damping = some d := by
  obtain ⟨d, hd, _, hc⟩ := emission_cases h
  rcases hc with ⟨a, ha, rfl⟩ | ⟨_, p, hl, rfl⟩
  · obtain ⟨_, hr, hk⟩ := present_eq_some ha
    exact ⟨hk, hr, d, hd⟩
  · exact ⟨(hp k p hl).1, (hp k p hl).2, d, hd⟩

theorem filter_synthesize (now : Time) (candidates : List (BackendCandidate F))
    {prior : GoMap (PriorState F)} (hp : WellKeyed prior) (cfg : BGPStabilityConfigSpec)
    (k : String) :
    (synthesize now candidates prior cfg).filter (fun c => c.name == k) =
      if k ∈ seen candidates then []
      else ((prior.lookup k).bind fun p =>
        evaluateAbsent now p (durationOrZero cfg.withdrawalGrace) cfg.dampening).toList :=
  filter_synthesized (fun _ _ h => evaluateAbsent_name h) prior.entries prior.nodupKeys
    (fun e he => (hp e.1 e.2 (AList.mem_lookup_iff.2 he)).1) (seen candidates) k

omit [Float64 F] in
theorem filter_rejected_of_accepted {candidates : List (BackendCandidate F)}
    (hn : (candidates.map BackendCandidate.name).Nodup) (hc : c ∈ candidates)
    (hr : c.rejected = false) :
    candidates.filter (fun a => a.rejected && a.name == c.name) = [] := by
  rw [← List.filter_filter, filter_name_of_mem hn hc, List.filter_eq_nil_iff]
  intro a ha
  rw [List.mem_singleton.1 ha, hr]
  exact Bool.false_ne_true

omit [Float64 F] in
theorem filter_name_of_unseen {candidates : List (BackendCandidate F)}
    (hk : k ∉ seen candidates) :
    candidates.filter (fun c => c.name == k) =
      candidates.filter fun c => c.rejected && c.name == k := by
  apply List.filter_congr
  intro c hc
  cases hr : c.rejected with
  | true => rw [Bool.true_and]
  | false =>
    rw [Bool.false_and, beq_eq_false_iff_ne]
    exact fun hn => hk ((mem_seen _ _).2 ⟨c, hc, hr, hn⟩)

theorem filter_evaluate_map (now : Time) (candidates : List (BackendCandidate F))
    {prior : GoMap (PriorState F)} (hp : WellKeyed prior) (cfg : BGPStabilityConfigSpec)
    (k : String) :
    (evaluate now candidates prior cfg).filter (fun c => c.name == k) =
      (candidates.filter fun c => c.name == k).map (evaluateCandidate now prior cfg) ++
        if k ∈ seen candidates then []
        else ((prior.lookup k).bind fun p =>
          evaluateAbsent now p (durationOrZero cfg.withdrawalGrace) cfg.dampening).toList := by
  rw [evaluate, List.filter_append, filter_synthesize now candidates hp, List.filter_map]
  have hfun : ((fun c : BackendCandidate F => c.name == k) ∘ evaluateCandidate now prior cfg) =
      fun c => c.name == k := by
    funext c
    rw [Function.comp, evaluateCandidate_name]
  rw [hfun]

theorem filter_evaluate_unseen (now : Time) {candidates : List (BackendCandidate F)}
    {prior : GoMap (PriorState F)} (hp : WellKeyed prior) (cfg : BGPStabilityConfigSpec)
    (h : present candidates k = none) :
    (evaluate now candidates prior cfg).filter (fun c => c.name == k) =
      candidates.filter (fun c => c.rejected && c.name == k) ++
        (emission now candidates prior cfg k).toList := by
  have hs := present_eq_none h
  rw [filter_evaluate_map now candidates hp, if_neg hs, filter_name_of_unseen hs, emission, h]
  congr 1
  apply (List.map_congr_left ?_).trans (List.map_id _)
  intro c hc
  have hr := (Bool.and_eq_true_iff.1 (List.mem_filter.1 hc).2).1
  rw [evaluateCandidate, if_pos hr, id]

/-- The output for one key: a rejected candidate passed through, then the damper's emission. -/
theorem filter_evaluate (now : Time) {candidates : List (BackendCandidate F)}
    (hn : (candidates.map BackendCandidate.name).Nodup) {prior : GoMap (PriorState F)}
    (hp : WellKeyed prior) (cfg : BGPStabilityConfigSpec) (k : String) :
    (evaluate now candidates prior cfg).filter (fun c => c.name == k) =
      candidates.filter (fun c => c.rejected && c.name == k) ++
        (emission now candidates prior cfg k).toList := by
  cases h : present candidates k with
  | none => exact filter_evaluate_unseen now hp cfg h
  | some c =>
    obtain ⟨hc, hr, rfl⟩ := present_eq_some h
    have hs : c.name ∈ seen candidates := (mem_seen _ _).2 ⟨c, hc, hr, rfl⟩
    rw [filter_evaluate_map now candidates hp, if_pos hs, filter_name_of_mem hn hc,
      filter_rejected_of_accepted hn hc hr, emission, h]
    rfl

omit [Float64 F] in
theorem nodup_of_filter_name {l : List (BackendCandidate F)}
    (h : ∀ k, (l.filter fun c => c.name == k).Nodup) : l.Nodup := by
  induction l with
  | nil => exact .nil
  | cons a l ih =>
    have ha := h a.name
    simp only [List.filter_cons, beq_self_eq_true, ↓reduceIte, List.nodup_cons,
      List.mem_filter, and_true] at ha
    rw [List.nodup_cons]
    refine ⟨ha.1, ih fun k => (h k).sublist ?_⟩
    exact List.Sublist.filter _ (List.sublist_cons_self a l)

theorem evaluate_nodup (now : Time) {candidates : List (BackendCandidate F)}
    (hn : (candidates.map BackendCandidate.name).Nodup) {prior : GoMap (PriorState F)}
    (hw : WellKeyed prior) (cfg : BGPStabilityConfigSpec) :
    (evaluate now candidates prior cfg).Nodup := by
  apply nodup_of_filter_name
  intro k
  rw [filter_evaluate now hn hw]
  cases he : emission now candidates prior cfg k with
  | none =>
    rw [Option.toList_none, List.append_nil]
    exact (List.Nodup.of_map _ hn).filter _
  | some c =>
    rw [Option.toList_some, List.nodup_append]
    refine ⟨(List.Nodup.of_map _ hn).filter _, List.nodup_singleton c, ?_⟩
    intro a ha b hb hab
    have hrej := (emission_eq_some hw he).2.1
    have hra := (Bool.and_eq_true_iff.1 (List.mem_filter.1 ha).2).1
    rw [hab, List.mem_singleton.1 hb, hrej] at hra
    cases hra

end Kreg
