import Kreg.KeyView
import Kreg.Settled
import Mathlib.Data.List.Induction

namespace Kreg
open Float64 ApiServer
set_option autoImplicit true

theorem forall_mem_none {P : α → Prop} : ∀ a ∈ (none : Option α), P a := by
  intro a h
  cases h

variable {F : Type} [Float64 F]

theorem Transition.lastObservedAt_eq {d : DampingInfo F} (h : Transition now cfg prev here d) :
    d.lastObservedAt = now := by
  cases h with
  | fresh =>
    rw [newCandidateDamping]
    split <;> rfl
  | settling | observed | held => rfl

theorem newCandidateDamping_withdrawnAt (now : Time) (delay : Duration) :
    (newCandidateDamping now delay : DampingInfo F).withdrawnAt = none := by
  rw [newCandidateDamping]
  split <;> rfl

theorem Transition.withdrawnAt_present {d : DampingInfo F} (h : Transition now cfg prev true d) :
    d.withdrawnAt = none := by
  cases h with
  | fresh => exact newCandidateDamping_withdrawnAt _ _
  | settling | observed => rfl

theorem Transition.owned {d : DampingInfo F} (h : Transition now cfg prev here d) : d.Verdict := by
  cases h with
  | fresh =>
    rw [newCandidateDamping]
    split
    · exact .inl ⟨rfl, rfl⟩
    · exact .inr (.inl rfl)
  | settling => exact .inr (.inl rfl)
  | @observed p =>
    obtain ⟨s, hs, hstate, hreason, _⟩ := observe_suppresses now p cfg.dampening
    rcases hs.state with ⟨ha, hr, _⟩ | ⟨hd, _⟩
    · exact .inl ⟨hstate.trans ha, hreason.trans hr⟩
    · exact .inr (.inr (.inr (hstate.trans hd)))
  | @held p =>
    obtain ⟨s, hs, hstate, _⟩ := hold_suppresses now (p.withdrawnAt.getD now) p
      (durationOrZero cfg.withdrawalGrace) cfg.dampening
    rcases hs.state with ⟨ha, _⟩ | ⟨hd, _⟩
    · rw [ha, if_neg (nomatch ·)] at hstate
      exact .inr (.inr (.inl hstate))
    · rw [hd, if_pos rfl] at hstate
      exact .inr (.inr (.inr hstate))

def BackendCandidate.memory (c : BackendCandidate F) : Option (PriorState F) :=
  (c.damping.bind DampingInfo.kept).map fun d => ⟨c.recorded, d⟩

theorem memory_damping (c : BackendCandidate F) :
    c.memory.map PriorState.damping = c.damping.bind DampingInfo.kept := by
  rw [BackendCandidate.memory, Option.map_map]
  exact Option.map_id'

theorem priorState_buildOne_memory (policies : List BGPBackendPolicy) {c : BackendCandidate F}
    (h : c.rejected = true ∧ c.damping = none ∨
      c.rejected = false ∧ ∃ d, c.damping = some d ∧ d.Verdict) :
    priorState (buildOne c policies).status.stored = c.memory := by
  rcases h with ⟨_, hd⟩ | ⟨hr, d, hd, hv⟩
  · rw [priorState_buildOne_undamped policies hd, BackendCandidate.memory, hd]
    rfl
  · rw [priorState_buildOne policies hr hd hv, BackendCandidate.memory, hd]
    rfl

theorem Emits.memorable {candidates : List (BackendCandidate F)} {prior : GoMap (PriorState F)}
    (h : Emits now candidates prior cfg c) (hu : ∀ c ∈ candidates, c.damping = none)
    (hp : ∀ k p, prior.lookup k = some p → p.candidate.rejected = false) :
    c.rejected = true ∧ c.damping = none ∨
      c.rejected = false ∧ ∃ d, c.damping = some d ∧ d.Verdict := by
  cases h with
  | passed hc hr => exact .inl ⟨hr, hu _ hc⟩
  | evaluated _ hr ht => exact .inr ⟨hr, _, rfl, ht.owned⟩
  | synthesized hl _ ht => exact .inr ⟨hp _ _ hl, _, rfl, ht.owned⟩

theorem lookup_insertPrior {prior : GoMap (PriorState F)}
    (h : (insertPrior prior b).lookup k = some p) :
    prior.lookup k = some p ∨ priorState b.status = some p := by
  rw [insertPrior] at h
  cases hb : priorState (F := F) b.status with
  | none =>
    rw [hb] at h
    exact .inl h
  | some q =>
    rw [hb] at h
    by_cases he : k = b.name
    · subst he
      rw [AList.lookup_insert] at h
      exact .inr h
    · rw [AList.lookup_insert_ne he] at h
      exact .inl h

theorem exists_priorState {items : List AdvertisedBackend} {p : PriorState F}
    (h : (priorStateFromAdvertisedBackends items).lookup k = some p) :
    ∃ b ∈ items, priorState b.status = some p := by
  rw [priorStateFromAdvertisedBackends] at h
  induction items using List.reverseRecOn with
  | nil =>
    rw [List.foldl_nil, AList.lookup_empty] at h
    cases h
  | append_singleton items b ih =>
    rw [List.foldl_append] at h
    rcases lookup_insertPrior h with h | h
    · obtain ⟨b', hb', hp⟩ := ih h
      exact ⟨b', List.mem_append_left _ hb', hp⟩
    · exact ⟨b, List.mem_append_right _ (.head _), h⟩

theorem priorStateFromAdvertisedBackends_unrejected (items : List AdvertisedBackend) :
    ∀ k (p : PriorState F), (priorStateFromAdvertisedBackends items).lookup k = some p →
      p.candidate.rejected = false := by
  intro k p h
  obtain ⟨b, _, hp⟩ := exists_priorState h
  obtain ⟨t, _, rfl⟩ := Option.map_eq_some_iff.1 hp
  rfl

theorem prior_swept_memory (stamp : Time) {out : List (BackendCandidate F)}
    (policies : List BGPBackendPolicy) {s : Records}
    (hs : k ∈ out.map BackendCandidate.name → ∀ r ∈ s.lookup k, r.managed = true)
    (hmem : ∀ c ∈ out, c.rejected = true ∧ c.damping = none ∨
      c.rejected = false ∧ ∃ d, c.damping = some d ∧ d.Verdict) :
    (swept stamp out policies s).prior k =
      (out.filter fun c => c.name == k).getLast?.bind BackendCandidate.memory := by
  rw [prior_swept_getLast stamp out policies s hs]
  apply Option.bind_congr
  intro c hl
  have hm := List.mem_of_getLast? hl
  exact priorState_buildOne_memory policies (hmem c (List.mem_filter.1 hm).1)

theorem getLast?_memory {l : List (BackendCandidate F)} (hl : ∀ c ∈ l, c.damping = none)
    (o : Option (BackendCandidate F)) :
    (l ++ o.toList).getLast?.bind BackendCandidate.memory = o.bind BackendCandidate.memory := by
  cases o with
  | some c => rw [Option.toList_some, List.getLast?_concat]
  | none =>
    rw [Option.toList_none, List.append_nil, Option.bind_none]
    apply Option.bind_eq_none_iff.2
    intro c hc
    rw [BackendCandidate.memory, hl c (List.mem_of_getLast? hc)]
    rfl

theorem prior_swept_iff (stamp : Time) {out : List (BackendCandidate F)}
    (policies : List BGPBackendPolicy) {s : Records} (hn : (out.map BackendCandidate.name).Nodup)
    (hs : ∀ c ∈ out, ∀ r ∈ s.lookup c.name, r.managed = true)
    (hmem : ∀ c ∈ out, c.rejected = true ∧ c.damping = none ∨
      c.rejected = false ∧ ∃ d, c.damping = some d ∧ d.Verdict)
    (k : String) (p : PriorState F) :
    (swept stamp out policies s).prior k = some p ↔
      ∃ c ∈ out, c.name = k ∧ c.memory = some p := by
  have hown : k ∈ out.map BackendCandidate.name → ∀ r ∈ s.lookup k, r.managed = true := by
    intro hk
    obtain ⟨c, hm, rfl⟩ := List.mem_map.1 hk
    exact hs c hm
  rw [prior_swept_memory stamp policies hown hmem]
  constructor
  · intro h
    obtain ⟨c, hl, hp⟩ := Option.bind_eq_some_iff.1 h
    obtain ⟨hm, hk⟩ := List.mem_filter.1 (List.mem_of_getLast? hl)
    exact ⟨c, hm, beq_iff_eq.1 hk, hp⟩
  · rintro ⟨c, hm, rfl, hp⟩
    rw [filter_name_of_mem hn hm]
    exact hp

def spokeCandidate : BackendCandidate Rat where
  pfx := "10.1.0.0/24"
  clusterID := "spoke"
  peer := "192.0.2.1"
  locality := ⟨"eu", "a"⟩
  med := 4294967295
  asPath := .made [64512, 4200000000]
  largeCommunities := .made ["64512:1:2"]
  weight := 100
  tier := ""
  drain := false
  serviceTag := none
  rejected := false
  reason := ""
  damping := none

def spokeVerdict : DampingInfo Rat where
  state := .active
  reason := ""
  score := 0
  flapCount24h := 0
  lastObservedAt := ⟨second⟩
  withdrawnAt := none
  suppressedSince := none
  pendingSince := none

end Kreg
