import Kreg.DurableMemory

namespace Kreg
open Float64 ApiServer
set_option autoImplicit true

/-- A store only sweeps have written to: every record is labelled and, once evaluated, bears the
key its own status spells for an IPv4 prefix. -/
structure Records.WellFormed (s : Records) : Prop where
  managed : ∀ k r, s.lookup k = some r → r.managed = true
  named : ∀ k r, s.lookup k = some r → r.status.stability.lastObservedAt.isSome = true →
    backendObjectName r.status.pfx r.status.clusterID = k
  ipv4 : ∀ k r, s.lookup k = some r → r.status.stability.lastObservedAt.isSome = true →
    IPv4Prefix r.status.pfx

theorem Records.WellFormed.empty : Records.WellFormed ∅ where
  managed k r h := by
    rw [AList.lookup_empty] at h
    cases h
  named k r h := by
    rw [AList.lookup_empty] at h
    cases h
  ipv4 k r h := by
    rw [AList.lookup_empty] at h
    cases h

section Sweeps

variable {F : Type} [Float64 F]

theorem Records.WellFormed.prior_named {s : Records} (h : s.WellFormed)
    {p : PriorState F} (hp : s.prior k = some p) :
    p.candidate.name = k ∧ p.candidate.rejected = false := by
  obtain ⟨r, hr, _, hp⟩ := (mem_prior_iff s k p).1 hp
  obtain ⟨t, ht, rfl⟩ := Option.map_eq_some_iff.1 hp
  exact ⟨h.named k r hr (by rw [ht]; rfl), rfl⟩

theorem Records.WellFormed.prior_ipv4 {s : Records} (h : s.WellFormed)
    {p : PriorState F} (hp : s.prior k = some p) : IPv4Prefix p.candidate.pfx := by
  obtain ⟨r, hr, _, hp⟩ := (mem_prior_iff s k p).1 hp
  obtain ⟨t, ht, rfl⟩ := Option.map_eq_some_iff.1 hp
  exact h.ipv4 k r hr (by rw [ht]; rfl)

def Records.RemembersSeconds (F : Type) [Float64 F] (s : Records) : Prop :=
  ∀ k, ∀ p : PriorState F, s.prior k = some p → p.damping.Stamped

theorem rewritten_eq_some (hl : ∀ b ∈ l, b.labels = [(managedByLabel, managedByValue)])
    {o : Option Record} (ho : ∀ r ∈ o, r.managed = true)
    (h : rewritten stamp k o l = some r) :
    (∃ b ∈ l, b.name = k ∧ ∃ o', (∀ r ∈ o', r.managed = true) ∧ r = written stamp b o') ∨
      k ∉ l.map AdvertisedBackend.name ∧ o = some r := by
  induction l generalizing o with
  | nil => exact .inr ⟨List.not_mem_nil, h⟩
  | cons b l ih =>
    have hrest := fun b hb => hl b (.tail _ hb)
    rw [rewritten, List.foldl_cons] at h
    by_cases he : b.name = k
    · rw [if_pos he] at h
      have hm := written_managed stamp (hl b (.head _)) ho
      rcases ih hrest (fun r hr => Option.some.inj hr ▸ hm) h with
        ⟨b', hb, hk, o', ho', hr⟩ | ⟨_, hr⟩
      · exact .inl ⟨b', .tail _ hb, hk, o', ho', hr⟩
      · exact .inl ⟨b, .head _, he, o, ho, (Option.some.inj hr).symm⟩
    · rw [if_neg he] at h
      rcases ih hrest ho h with ⟨b', hb, hk, o', ho', hr⟩ | ⟨hn, hr⟩
      · exact .inl ⟨b', .tail _ hb, hk, o', ho', hr⟩
      · refine .inr ⟨?_, hr⟩
        rw [List.map_cons, List.mem_cons, not_or]
        exact ⟨Ne.symm he, hn⟩

theorem lookup_swept {s : Records} (hs : ∀ k r, s.lookup k = some r → r.managed = true)
    {candidates : List (BackendCandidate F)}
    (h : (swept stamp candidates policies s).lookup k = some r) :
    ∃ c ∈ candidates, c.name = k ∧ ∃ o, (∀ r ∈ o, r.managed = true) ∧
      r = written stamp (buildOne c policies) o := by
  have hrew : rewritten stamp k (s.lookup k) (buildAdvertisedBackends candidates policies) =
      some r ∧ (k ∉ candidates.map BackendCandidate.name → r.managed = false) := by
    rw [swept] at h
    by_cases hk : k ∈ candidates.map BackendCandidate.name
    · rw [lookup_pruned_of_mem _ hk, lookup_foldl_applied] at h
      exact ⟨h, fun hn => (hn hk).elim⟩
    · rw [lookup_pruned_of_notMem _ hk, lookup_foldl_applied, Option.filter_eq_some_iff] at h
      exact ⟨h.1, fun _ => by simpa only [Bool.not_eq_true'] using h.2⟩
  rcases rewritten_eq_some (buildAdvertisedBackends_labels candidates policies) (hs k) hrew.1 with
    ⟨b, hb, hk, o, ho, hr⟩ | ⟨hk, hr⟩
  · obtain ⟨c, hc, rfl⟩ := List.mem_map.1 hb
    exact ⟨c, hc, hk, o, ho, hr⟩
  · rw [buildAdvertisedBackends_names] at hk
    have hm := hs k r hr
    rw [hrew.2 hk] at hm
    cases hm

theorem Records.WellFormed.swept {s : Records} (h : s.WellFormed)
    {candidates : List (BackendCandidate F)}
    (hv : ∀ c ∈ candidates, IPv4Prefix c.pfx) (stamp : Time)
    (policies : List BGPBackendPolicy) : (swept stamp candidates policies s).WellFormed where
  managed k r hr := by
    obtain ⟨c, _, _, o, ho, rfl⟩ := lookup_swept h.managed hr
    exact written_managed stamp rfl ho
  named k r hr _ := by
    obtain ⟨c, _, hk, o, _, rfl⟩ := lookup_swept h.managed hr
    cases o <;> exact hk
  ipv4 k r hr _ := by
    obtain ⟨c, hm, _, o, _, rfl⟩ := lookup_swept h.managed hr
    cases o <;> exact hv c hm

end Sweeps

/-- An order in which Go may iterate over a prior map. -/
structure Visit (F : Type) where
  order : GoMap (PriorState F) → GoMap (PriorState F)
  perm : ∀ m, (order m).entries.Perm m.entries

def Visit.asListed (F : Type) : Visit F := ⟨id, fun _ => .refl _⟩

section Visits

variable {F : Type} [Float64 F]

def Visit.prior (v : Visit F) (cfg : BGPStabilityConfigSpec) (s : Records) :
    GoMap (PriorState F) :=
  v.order (loadPrior cfg s.listManaged)

theorem Visit.lookup_prior (v : Visit F) (cfg : BGPStabilityConfigSpec) (s : Records)
    (k : String) :
    (v.prior cfg s).lookup k = if needsPriorState cfg then s.prior k else none := by
  rw [Visit.prior, AList.perm_lookup (v.perm _), loadPrior]
  split
  · exact lookup_priorStateFromAdvertisedBackends s k
  · exact AList.lookup_empty k

theorem Visit.prior_of_lookup {v : Visit F} {p : PriorState F}
    (h : (v.prior cfg s).lookup k = some p) : s.prior k = some p := by
  rw [v.lookup_prior] at h
  split at h
  · exact h
  · cases h

theorem Visit.wellKeyed (v : Visit F) (cfg : BGPStabilityConfigSpec) {s : Records}
    (h : s.WellFormed) : WellKeyed (v.prior cfg s) :=
  fun _ _ hp => h.prior_named (Visit.prior_of_lookup hp)

end Visits

end Kreg
