import Kreg.AddressText
import Kreg.Trust

namespace Kreg
set_option autoImplicit true

variable {F : Type}

theorem addressAndType_read (h : addressAndType pfx = .ok (addr, addrType)) :
    ∃ c, parseCIDR pfx = .ok c ∧ parseIP addr = some c.ip := by
  rw [addressAndType] at h
  cases hc : parseCIDR pfx with
  | error e =>
    rw [hc] at h
    cases h
  | ok c =>
    refine ⟨c, rfl, ?_⟩
    have hread := parseIP_string (parseCIDR_unmapped hc)
    simp only [hc] at h
    split at h <;> cases h <;> exact hread

theorem renderEndpointSlice_read {c : BackendCandidate F}
    (h : renderEndpointSlice policy svc c = .ok o) :
    ∃ spec address cidr, o.content = .endpointSlice spec ∧
      spec.endpoints.flatMap Endpoint.addresses = [address] ∧ parseCIDR c.pfx = .ok cidr ∧
      parseIP address = some cidr.ip ∧ o.name = endpointSliceName svc c.clusterID c.pfx := by
  rw [renderEndpointSlice] at h
  split at h
  · cases h
  · next ha =>
    obtain ⟨cidr, hc, hread⟩ := addressAndType_read ha
    cases h
    exact ⟨_, _, cidr, rfl, rfl, hc, hread, rfl⟩

theorem RIBRoute.owner_allows {route : RIBRoute} (h : route.owner bindings = some b) :
    ∃ c, parseCIDR route.pfx = .ok c ∧ b ∈ bindings ∧ b.allows c.ip = true := by
  rw [RIBRoute.owner] at h
  cases hc : parseCIDR route.pfx with
  | error e =>
    rw [hc] at h
    cases h
  | ok c =>
    simp only [hc] at h
    exact ⟨c, rfl, List.mem_of_find?_eq_some h, List.find?_some h⟩

/-- The address a written EndpointSlice sends traffic to, as its readers parse it, is that of the
prefix the slice is named after, and lies inside what some PeerConfig allowed the cluster it is
named after. -/
theorem SystemRun.addresses_allowed [Float64 F] [SecondsCast] (r : SystemRun F)
    (hstart : ∀ k x, r.start.records.lookup k = some x → ¬ x.status.Observed)
    (hk : k.kind = .endpointSlice) (hx : (r.state n).cluster.objects.lookup k = some x)
    (hnew : r.start.cluster.objects.lookup k ≠ some x) :
    ∃ spec address policy pfx cidr, x.content = .endpointSlice spec ∧
      spec.endpoints.flatMap Endpoint.addresses = [address] ∧
      parseIP address = some cidr.ip ∧ parseCIDR pfx = .ok cidr ∧
      ∃ m ≤ n, ∃ b ∈ (r.state m).allBindings, b.allows cidr.ip = true ∧
        k.name = endpointSliceName (serviceName policy) b.clusterID pfx := by
  obtain ⟨policy, c, o, _, hauth, hrender, rfl, rfl⟩ :=
    (r.accounted hstart n k x hk hx).resolve_left hnew
  obtain ⟨spec, address, cidr, hcontent, hone, hc, hread, hname⟩ := renderEndpointSlice_read hrender
  obtain ⟨t, ht, _, _, m, routes, i, route, b, hholds, _, hadm, hpfx, hid⟩ := hauth
  obtain ⟨cidr', hc', hb, hallows⟩ := RIBRoute.owner_allows hadm.owned
  rw [hpfx, hc] at hc'
  cases hc'
  refine ⟨spec, address, policy, c.pfx, cidr, hcontent, hone, hread, hc, m,
    hholds.earlier.2.trans ht, b, hb, hallows, ?_⟩
  rw [hid]
  exact hname

theorem addresses_allowed_hub : ∃ spec address policy pfx cidr,
    hubSlice.content = .endpointSlice spec ∧
      spec.endpoints.flatMap Endpoint.addresses = [address] ∧
      parseIP address = some cidr.ip ∧ parseCIDR pfx = .ok cidr ∧
      ∃ m ≤ 6, ∃ b ∈ (hubRun.state m).allBindings, b.allows cidr.ip = true ∧
        hubSlice.name = endpointSliceName (serviceName policy) b.clusterID pfx := by
  apply hubRun.addresses_allowed hubRun_unobserved rfl hubRun_slice
  decide +kernel

end Kreg
