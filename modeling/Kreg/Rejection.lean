import Kreg.Runs

namespace Kreg
open Float64
set_option autoImplicit true

theorem nodup_map_iff [DecidableEq β] (f : α → β) (l : List α) :
    (l.map f).Nodup ↔ ∀ b, (l.filter fun a => f a == b).length ≤ 1 := by
  rw [List.nodup_iff_count_le_one]
  simp only [List.count_eq_countP, List.countP_eq_length_filter, List.filter_map,
    List.length_map, Function.comp_def]

variable {F : Type} [Float64 F]

/-- A rejected candidate's key is not here, so its record is treated as one of a withdrawn
route. -/
theorem emission_of_rejected {candidates : List (BackendCandidate F)}
    (hn : (candidates.map BackendCandidate.name).Nodup) (hc : c ∈ candidates)
    (hr : c.rejected = true) (prior : GoMap (PriorState F)) :
    emission now candidates prior cfg c.name = (prior.lookup c.name).bind fun p =>
      evaluateAbsent now p (durationOrZero cfg.withdrawalGrace) cfg.dampening := by
  rw [emission]
  cases hp : present candidates c.name with
  | none => rfl
  | some a =>
    obtain ⟨ha, hra, hk⟩ := present_eq_some hp
    have hmem : a ∈ candidates.filter fun b => b.name == c.name :=
      List.mem_filter.2 ⟨ha, beq_iff_eq.2 hk⟩
    rw [filter_name_of_mem hn hc, List.mem_singleton] at hmem
    rw [hmem, hr] at hra
    cases hra

theorem emission_of_rejected_eq_none {candidates : List (BackendCandidate F)}
    (hn : (candidates.map BackendCandidate.name).Nodup) (hc : c ∈ candidates)
    (hr : c.rejected = true) (prior : GoMap (PriorState F)) :
    emission now candidates prior cfg c.name = none ↔
      ∀ p, prior.lookup c.name = some p →
        p.damping.Lapsed now (durationOrZero cfg.withdrawalGrace) := by
  rw [emission_of_rejected hn hc hr]
  cases prior.lookup c.name with
  | none =>
    refine ⟨fun _ p hp => ?_, fun _ => rfl⟩
    cases hp
  | some p =>
    rw [Option.bind_some, evaluateAbsent, Option.map_eq_none_iff, absentDamping_eq_none_iff]
    exact ⟨fun h q hq => Option.some.inj hq ▸ h, fun h => h p rfl⟩

omit [Float64 F] in
theorem filter_rejected_length {candidates : List (BackendCandidate F)}
    (hn : (candidates.map BackendCandidate.name).Nodup) (k : String) :
    (candidates.filter fun c => c.rejected && c.name == k).length ≤ 1 := by
  have hsub : (candidates.filter fun c => c.rejected && c.name == k).length ≤
      (candidates.filter fun c => c.name == k).length :=
    (List.monotone_filter_right _ fun c h => (Bool.and_eq_true_iff.1 h).2).length_le
  exact hsub.trans ((nodup_map_iff _ _).1 hn k)

theorem Tick.names_nodup_iff (t : Tick F) (cfg : BGPStabilityConfigSpec) {s : Records}
    (hs : s.WellFormed) :
    ((t.emitted cfg s).map BackendCandidate.name).Nodup ∧
        ((buildAdvertisedBackends (t.emitted cfg s) t.policies).map
          AdvertisedBackend.name).Nodup ↔
      ∀ c ∈ t.candidates, c.rejected = true → ∀ p, (t.prior cfg s).lookup c.name = some p →
        p.damping.state = .pending ∨
          (durationOrZero cfg.withdrawalGrace).ns ≤
            (t.now.sub (p.damping.withdrawnAt.getD t.now)).ns := by
  rw [buildAdvertisedBackends_names, and_self, nodup_map_iff]
  simp only [t.filter_emitted cfg hs, List.length_append]
  constructor
  · intro h c hc hr
    refine (emission_of_rejected_eq_none t.distinct hc hr (t.prior cfg s)).1 ?_
    have hmem : c ∈ t.candidates.filter fun a => a.rejected && a.name == c.name :=
      List.mem_filter.2 ⟨hc, by rw [hr, beq_self_eq_true]; rfl⟩
    have hpos := List.length_pos_of_mem hmem
    have hle := h c.name
    change Kreg.emission t.now t.candidates (t.prior cfg s) cfg c.name = none
    cases he : Kreg.emission t.now t.candidates (t.prior cfg s) cfg c.name with
    | none => rfl
    | some a =>
      rw [Tick.emission, he, Option.toList_some, List.length_singleton] at hle
      omega
  · intro h k
    cases he : t.emission cfg s k with
    | none => exact (Nat.add_zero _).le.trans (filter_rejected_length t.distinct k)
    | some a =>
      have hnil : t.candidates.filter (fun c => c.rejected && c.name == k) = [] := by
        rw [List.filter_eq_nil_iff]
        intro c hc hp
        obtain ⟨hr, hk⟩ := Bool.and_eq_true_iff.1 hp
        have hnone := (emission_of_rejected_eq_none t.distinct hc hr (t.prior cfg s)).2 (h c hc hr)
        rw [beq_iff_eq.1 hk] at hnone
        exact nomatch he.symm.trans hnone
      rw [hnil]
      rfl

/-- At every tick of a run the damper returns one verdict for each record exactly when no route
it passes through as rejected still has a record it holds down. -/
theorem Run.emitted_names_nodup_iff (r : Run F) (n : Nat) :
    ((r.emitted n).map BackendCandidate.name).Nodup ∧
        ((buildAdvertisedBackends (r.emitted n) (r.tick n).policies).map
          AdvertisedBackend.name).Nodup ↔
      ∀ c ∈ (r.tick n).candidates, c.rejected = true →
        ∀ p, ((r.tick n).prior r.cfg (r.store n)).lookup c.name = some p →
          p.damping.state = .pending ∨
            (durationOrZero r.cfg.withdrawalGrace).ns ≤
              ((r.now n).sub (p.damping.withdrawnAt.getD (r.now n))).ns :=
  (r.tick n).names_nodup_iff r.cfg (r.store_wellFormed n)

/-- Accepted, then refused by an edit of the CommunityMap. -/
def refusedRun : Run Rat :=
  sampleRun Rat ⟨some (.seconds 30), none, none⟩ 5 fun n => if n = 0 then .accepted else .refused

/-- The refused route is emitted twice: passed through as rejected, and held down. -/
theorem Run.emitted_names_refused :
    (refusedRun.emitted 1).map (fun c => (c.name, (stateAndReason c).1)) =
        [("10-0-0-0-24-edge", .rejected), ("10-0-0-0-24-edge", .holdDown)] ∧
      ¬ ((refusedRun.emitted 1).map BackendCandidate.name).Nodup := by
  decide +kernel

section Service

/-- The record's suppression outlasts the absence of its route: it was entered and neither
`maxSuppress` nor the decay below `reuseThreshold` ends it, or the score enters it now. -/
def DampingInfo.StaysDampened (d : DampingInfo F) (now : Time)
    (dampening : Option DampeningConfig) : Prop :=
  ∃ c, dampening = some c ∧ c.enabled = true ∧
    ((∃ u, d.suppressedSince = some u ∧ (now.sub u).ns < (maxSuppressOf c).ns ∧
        lt (d.carried now dampening) (ofInt (reuseThresholdOf c).toInt) = false) ∨
      d.suppressedSince = none ∧
        le (ofInt (suppressThresholdOf c).toInt) (d.carried now dampening) = true)

theorem DampingInfo.staysDampened_iff (d : DampingInfo F) (now : Time)
    (dampening : Option DampeningConfig) :
    d.StaysDampened now dampening ↔
      Suppressed now (d.carried now dampening) d.suppressedSince dampening := by
  rw [DampingInfo.StaysDampened]
  generalize d.carried now dampening = score
  cases dampening with
  | none => simp only [Suppressed, reduceCtorEq, false_and, exists_false]
  | some c =>
    cases d.suppressedSince with
    | none =>
      simp only [Suppressed, Option.some.injEq, reduceCtorEq, exists_eq_left', false_and,
        exists_false, false_or, true_and]
    | some u =>
      simp only [Suppressed, Option.some.injEq, reduceCtorEq, exists_eq_left', false_and,
        or_false]

theorem servable_hold_iff {p : PriorState F} (hr : p.candidate.rejected = false)
    (now withdrawnAt : Time) (grace : Duration) (dampening : Option DampeningConfig) :
    BackendCandidate.servable { p.candidate with
        damping := some (hold now withdrawnAt p.damping grace dampening) } = true ↔
      ¬ p.damping.StaysDampened now dampening := by
  rw [DampingInfo.staysDampened_iff, ← hold_dampened_iff now withdrawnAt p.damping grace]
  refine (servable_iff (c := { p.candidate with damping := some _ }) hr rfl).trans ?_
  exact and_iff_left (hold_not_pending _ _ _ _ _)

omit [Float64 F] in
theorem select_avoids_iff (out : List (BackendCandidate F)) (pfx : String) :
    (∀ sel selected, select out sel = .ok selected → ∀ a ∈ selected, a.pfx ≠ pfx) ↔
      ∀ a ∈ out, a.servable = true → a.pfx ≠ pfx := by
  constructor
  · intro h a ha hs
    exact h .all _ (select_all out) a (List.mem_filter.2 ⟨ha, hs⟩)
  · intro h sel selected hsel a ha
    obtain ⟨hm, hs⟩ := select_servable hsel a ha
    exact h a hm hs

theorem loadPrior_unrejected (cfg : BGPStabilityConfigSpec) (items : List AdvertisedBackend)
    {p : PriorState F} (h : (loadPrior cfg items).lookup k = some p) :
    p.candidate.rejected = false := by
  rw [loadPrior] at h
  split at h
  · exact priorStateFromAdvertisedBackends_unrejected items k p h
  · rw [AList.lookup_empty] at h
    cases h

/-- A route rejected in a tick stays unserved in that tick exactly when no record of its prefix
can be held down: each belongs to a key that was accepted, or was never served, or is past its
grace, or stays suppressed. -/
theorem rejected_unserved_iff {bindings : List ClusterBinding}
    {candidates : List (BackendCandidate F)} {prior : GoMap (PriorState F)}
    (hd : (routes.map RIBRoute.pfx).Nodup)
    (hc : settle routes bindings cm = .ok candidates)
    (hp : prior.entries.Perm (loadPrior cfg items).entries) :
    (∀ c ∈ candidates, c.rejected = true → ∀ sel selected,
        select (evaluate now candidates prior cfg) sel = .ok selected →
          ∀ a ∈ selected, a.pfx ≠ c.pfx) ↔
      ∀ c ∈ candidates, c.rejected = true → ∀ k (p : PriorState F),
        (loadPrior cfg items).lookup k = some p → p.candidate.pfx = c.pfx →
          (∃ a ∈ candidates, a.rejected = false ∧ a.name = k) ∨
          p.damping.state = .pending ∨
          (durationOrZero cfg.withdrawalGrace).ns ≤
            (now.sub (p.damping.withdrawnAt.getD now)).ns ∨
          p.damping.StaysDampened now cfg.dampening := by
  have hlook : ∀ k, prior.lookup k = (loadPrior cfg items).lookup k := fun k =>
    AList.perm_lookup hp
  have hnodup : (candidates.map BackendCandidate.pfx).Nodup := by
    rw [settle_pfx hc]
    exact hd
  simp only [select_avoids_iff, ← mem_seen]
  constructor
  · intro h c hm hr k p hl hpfx
    by_contra hcon
    simp only [not_or] at hcon
    obtain ⟨hk, hs, hg, hdamp⟩ := hcon
    have ht : Transition now cfg (some p.damping) false _ := .held hs (not_le.1 hg)
    have he : Emits now candidates prior cfg _ := .synthesized ((hlook k).trans hl) hk ht
    refine h c hm hr _ he.mem ?_ hpfx
    exact (servable_hold_iff (loadPrior_unrejected cfg items hl) _ _ _ _).2 hdamp
  · intro h c hm hr a ha hs hpfx
    cases mem_evaluate ha with
    | passed _ hra =>
      rw [BackendCandidate.servable, hra] at hs
      cases hs
    | evaluated ha' hra _ =>
      rw [List.inj_on_of_nodup_map hnodup ha' hm hpfx, hr] at hra
      cases hra
    | @synthesized k p _ hl hk ht =>
      rw [hlook] at hl
      cases ht with
      | held hs' hg =>
        rcases h c hm hr k p hl hpfx with hseen | hpend | hgrace | hstay
        · exact hk hseen
        · exact hs' hpend
        · exact not_lt.2 hgrace hg
        · exact (servable_hold_iff (loadPrior_unrejected cfg items hl) _ _ _ _).1 hs hstay

/-- The route has been refused for so long that the grace of its record is over. -/
theorem rejected_unserved_lapsed :
    (∃ p, (loadPrior (F := Rat) refusedRun.cfg (refusedRun.store 7).listManaged).lookup
        "10-0-0-0-24-edge" = some p ∧ p.damping.state = .holdDown) ∧
      ¬ ∃ selected, select (evaluate (refusedRun.now 7) (Sighting.refused.candidates (F := Rat))
          (loadPrior refusedRun.cfg (refusedRun.store 7).listManaged) refusedRun.cfg) .all =
            .ok selected ∧ ∃ a ∈ selected, a.pfx = "10.0.0.0/24" := by
  have hroutes : (Sighting.refused.rib.routes.map RIBRoute.pfx).Nodup := by decide
  have hsettle : settle Sighting.refused.rib.routes [sampleBinding] Sighting.refused.cm =
      .ok (Sighting.refused.candidates : List (BackendCandidate Rat)) := rfl
  have hheld : ((loadPrior (F := Rat) refusedRun.cfg (refusedRun.store 7).listManaged).lookup
      "10-0-0-0-24-edge").map (fun p => p.damping.state) = some .holdDown := by
    decide +kernel
  have hlapsed : ∀ e ∈ (loadPrior (F := Rat) refusedRun.cfg
      (refusedRun.store 7).listManaged).entries, (Duration.seconds 30).ns ≤
        ((refusedRun.now 7).sub (e.2.damping.withdrawnAt.getD (refusedRun.now 7))).ns := by
    decide +kernel
  refine ⟨Option.map_eq_some_iff.1 hheld, ?_⟩
  rintro ⟨selected, hsel, a, ha, hpfx⟩
  refine (rejected_unserved_iff hroutes hsettle (.refl _)).2 ?_ _ (.head _) rfl .all selected hsel
    a ha hpfx
  intro c _ _ k p hl _
  exact .inr (.inr (.inl (hlapsed ⟨k, p⟩ (AList.mem_lookup_iff.1 hl))))

/-- The route refused at the second tick is selected at that tick, from its own record. -/
theorem refused_route_served :
    (refusedRun.tick 1).candidates.map (fun c => (c.pfx, c.rejected)) =
        [("10.0.0.0/24", true)] ∧
      (select (refusedRun.emitted 1) .all).toOption.map (List.map BackendCandidate.pfx) =
        some ["10.0.0.0/24"] := by
  decide +kernel

end Service

end Kreg
