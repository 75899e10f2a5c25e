import Kreg.ReportRender
import Kreg.Sequences

namespace Kreg
open Relation Sequences
set_option autoImplicit true

def LoadBalancingConfig.preference (lb : LoadBalancingConfig) : List String :=
  match lb.locality with
  | none => []
  | some locality => locality.preference

def DestinationRuleSpec.FailsOver (spec : DestinationRuleSpec) (a b : String) : Prop :=
  ∃ chain, spec.failover = some chain ∧ ⟨a, b⟩ ∈ chain

theorem mem_failoverChain : ⟨a, b⟩ ∈ failoverChain preference ↔ Follows preference a b := by
  rw [← mem_zip_tail_iff, failoverChain, List.mem_map]
  constructor
  · rintro ⟨⟨a, b⟩, h, hab⟩
    cases hab
    exact h
  · exact fun h => ⟨(a, b), h, rfl⟩

theorem failsOver_iff {spec : DestinationRuleSpec} {lb : LoadBalancingConfig}
    (h : spec.failover = loadBalancerSettings lb) :
    spec.FailsOver a b ↔ Follows lb.preference a b := by
  rw [DestinationRuleSpec.FailsOver, h, loadBalancerSettings, LoadBalancingConfig.preference]
  cases lb.locality with
  | none =>
    simp only [reduceCtorEq, false_and, exists_false, false_iff]
    rintro ⟨i, hi, _⟩
    cases hi
  | some locality =>
    simp only
    split
    · next hshort =>
      simp only [reduceCtorEq, false_and, exists_false, false_iff]
      rintro ⟨i, _, hi⟩
      have hlen := (List.getElem?_eq_some_iff.1 hi).1
      omega
    · simp only [Option.some.injEq, exists_eq_left', mem_failoverChain]

/-- The DestinationRule of a policy fails over in the order of its preference: from a locality the
later ones are reached, and only those; except if one is named twice, and then exactly there are
localities whose traffic comes back to them. -/
theorem render_failover {candidates : List (BackendCandidate F)}
    (h : render policy candidates istioDriver = .ok out) :
    ∃ o spec, out.driverObjects = [o] ∧ o.content = .destinationRule spec ∧
      ((∀ a, ¬ TransGen spec.FailsOver a a) ↔ policy.loadBalancing.preference.Nodup) ∧
      (policy.loadBalancing.preference.Nodup → ∀ a b, TransGen spec.FailsOver a b ↔
        ∃ i j : Nat, i < j ∧ policy.loadBalancing.preference[i]? = some a ∧
          policy.loadBalancing.preference[j]? = some b) := by
  obtain ⟨selected, _, _, hdriver, _⟩ := render_ok_iff.1 h
  rw [istioDriver] at hdriver
  split at hdriver
  · cases hdriver
  · next tls _ =>
    have hobjects := Except.ok.inj hdriver
    refine ⟨_, _, hobjects.symm, rfl, ?_⟩
    generalize hspec : DestinationRuleSpec.mk _ _ _ _ = spec
    have hfails : spec.FailsOver = Follows policy.loadBalancing.preference := by
      funext a b
      exact propext (failsOver_iff (hspec ▸ rfl))
    rw [hfails]
    refine ⟨acyclic_follows_iff _, ?_⟩
    intro hnodup a b
    exact ⟨lt_of_transGen hnodup, fun ⟨i, j, hij, ha, hb⟩ => transGen_of_lt ha hb hij⟩

/-- Traffic that leaves zone `a` for `b` may go on to `c`. -/
def zonedPolicy : BGPBackendPolicy :=
  { webPolicy with loadBalancing := ⟨some ⟨["a", "b", "c"]⟩⟩ }

theorem render_failover_zoned : ∃ out o spec,
    render zonedPolicy [spokeCandidate] istioDriver = .ok out ∧ out.driverObjects = [o] ∧
      o.content = .destinationRule spec ∧ TransGen spec.FailsOver "a" "c" ∧
      ∀ a, ¬ TransGen spec.FailsOver a a := by
  obtain ⟨out, hout⟩ : ∃ out, render zonedPolicy [spokeCandidate] istioDriver = .ok out :=
    ⟨_, rfl⟩
  obtain ⟨o, spec, hone, hspec, hacyclic, hreach⟩ := render_failover hout
  have hnodup : zonedPolicy.loadBalancing.preference.Nodup := by decide
  have hlater := (hreach hnodup "a" "c").2 ⟨0, 2, by decide, rfl, rfl⟩
  exact ⟨out, o, spec, hout, hone, hspec, hlater, hacyclic.2 hnodup⟩

end Kreg
