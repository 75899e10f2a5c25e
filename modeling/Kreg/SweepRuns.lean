import Kreg.FirstSeen
import Kreg.Runs
import Kreg.Sequences

namespace Kreg
open ApiServer Sequences
set_option autoImplicit true

variable {F : Type} [Float64 F]

section Cuts

omit [Float64 F] in
theorem Records.WellFormed.erase {s : Records} (h : s.WellFormed) (name : String) :
    Records.WellFormed (s.erase name) where
  managed k r hr := h.managed k r (lookup_of_erase hr)
  named k r hr := h.named k r (lookup_of_erase hr)
  ipv4 k r hr := h.ipv4 k r (lookup_of_erase hr)

theorem Records.WellFormed.bared {s : Records} (h : s.WellFormed) (c : BackendCandidate F)
    (policies : List BGPBackendPolicy) : (bared s (buildOne c policies)).WellFormed := by
  have hcases (k : String) (r : Record)
      (hr : (Kreg.bared s (buildOne c policies)).lookup k = some r) :
      r = ⟨[(managedByLabel, managedByValue)], .empty⟩ ∨ s.lookup k = some r := by
    by_cases hk : k = (buildOne c policies).name
    · subst hk
      rw [Kreg.bared, AList.lookup_insert] at hr
      cases hr
      exact .inl rfl
    · rw [Kreg.bared, AList.lookup_insert_ne hk] at hr
      exact .inr hr
  refine ⟨?_, ?_, ?_⟩
  · intro k r hr
    rcases hcases k r hr with rfl | hold
    · decide
    · exact h.managed k r hold
  · intro k r hr ho
    rcases hcases k r hr with rfl | hold
    · cases ho
    · exact h.named k r hold ho
  · intro k r hr ho
    rcases hcases k r hr with rfl | hold
    · cases ho
    · exact h.ipv4 k r hold ho

theorem Records.WellFormed.applied {s : Records} (h : s.WellFormed) {c : BackendCandidate F}
    (hc : IPv4Prefix c.pfx) (stamp : Time) (policies : List BGPBackendPolicy) :
    (applied stamp s (buildOne c policies)).WellFormed := by
  have hcases (k : String) (r : Record)
      (hr : (Kreg.applied stamp s (buildOne c policies)).lookup k = some r) :
      c.name = k ∧ r = written stamp (buildOne c policies) (s.lookup k) ∨
        s.lookup k = some r := by
    rw [lookup_applied] at hr
    split at hr
    · next hk =>
      cases hr
      exact .inl ⟨hk, rfl⟩
    · exact .inr hr
  refine ⟨?_, ?_, ?_⟩
  · intro k r hr
    rcases hcases k r hr with ⟨_, rfl⟩ | hold
    · exact written_managed stamp rfl fun r hr => h.managed k r hr
    · exact h.managed k r hold
  · intro k r hr ho
    rcases hcases k r hr with ⟨hk, rfl⟩ | hold
    · cases s.lookup k <;> exact hk
    · exact h.named k r hold ho
  · intro k r hr ho
    rcases hcases k r hr with ⟨_, rfl⟩ | hold
    · cases s.lookup k <;> exact hc
    · exact h.ipv4 k r hold ho

theorem prior_applied (stamp : Time) {s : Records} (hs : s.WellFormed)
    {c : BackendCandidate F} (policies : List BGPBackendPolicy)
    (h : c.rejected = true ∧ c.damping = none ∨
      c.rejected = false ∧ ∃ d, c.damping = some d ∧ d.Verdict) (k : String) :
    (applied stamp s (buildOne c policies)).prior k =
      if c.name = k then c.memory else s.prior k := by
  rw [Records.prior, lookup_applied]
  change Option.bind (if c.name = k then _ else _) _ = _
  split
  · have hm := written_managed stamp (b := buildOne c policies) rfl
      fun r hr => hs.managed k r hr
    rw [Option.bind_some, if_pos hm, written_priorState, priorState_buildOne_memory policies h]
  · rfl

theorem prior_bared {s : Records} (hnone : s.lookup b.name = none) (k : String) :
    (bared s b).prior k = (s.prior k : Option (PriorState F)) := by
  rw [Records.prior, Records.prior, bared]
  by_cases hk : k = b.name
  · subst hk
    rw [AList.lookup_insert, hnone, Option.bind_some, Option.bind_none]
    split <;> rfl
  · rw [AList.lookup_insert_ne hk]

theorem prior_erase (s : Records) (name k : String) :
    Records.prior (F := F) (s.erase name) k = if k = name then none else s.prior k := by
  rw [Records.prior]
  split
  · next hk => rw [hk, AList.lookup_erase, Option.bind_none]
  · next hk => rw [AList.lookup_erase_ne hk, Records.prior]

theorem Tick.memorable (t : Tick F) (cfg : BGPStabilityConfigSpec) {s : Records}
    (h : s.WellFormed) (hc : c ∈ t.emitted cfg s) :
    c.rejected = true ∧ c.damping = none ∨
      c.rejected = false ∧ ∃ d, c.damping = some d ∧ d.Verdict :=
  (mem_evaluate hc).memorable t.undamped fun k p hp => (t.wellKeyed cfg h k p hp).2

/-- What may be remembered of a key when a sweep is cut off: what was, what would be at its end,
or nothing, if it is the key of a rejected route. -/
def Tick.Leaves (t : Tick F) (cfg : BGPStabilityConfigSpec) (s : Records) (k : String)
    (o : Option (PriorState F)) : Prop :=
  o = s.prior k ∨ o = (t.sweep cfg s).prior k ∨
    o = none ∧ ∃ c ∈ t.candidates, c.rejected = true ∧ c.name = k

theorem Tick.leaves_memory (t : Tick F) (cfg : BGPStabilityConfigSpec) {s : Records}
    (h : s.WellFormed) (hc : c ∈ t.emitted cfg s) : t.Leaves cfg s c.name c.memory := by
  have hmem : c ∈ (t.emitted cfg s).filter fun a => a.name == c.name :=
    List.mem_filter.2 ⟨hc, beq_self_eq_true _⟩
  rw [t.filter_emitted cfg h, List.mem_append] at hmem
  rcases hmem with hrej | hemitted
  · obtain ⟨hcand, hr⟩ := List.mem_filter.1 hrej
    refine .inr (.inr ⟨?_, c, hcand, (Bool.and_eq_true_iff.1 hr).1, rfl⟩)
    rw [BackendCandidate.memory, t.undamped c hcand]
    rfl
  · rw [Option.mem_toList] at hemitted
    refine .inr (.inl ?_)
    rw [t.prior_sweep cfg h, hemitted, Option.bind_some]

theorem Tick.prior_sweep_of_unnamed (t : Tick F) (cfg : BGPStabilityConfigSpec) {s : Records}
    (h : s.WellFormed) (hk : k ∉ (t.emitted cfg s).map BackendCandidate.name) :
    (t.sweep cfg s).prior k = (none : Option (PriorState F)) := by
  have hnil : (t.emitted cfg s).filter (fun c => c.name == k) = [] := by
    rw [List.filter_eq_nil_iff]
    intro c hc hname
    exact hk (List.mem_map.2 ⟨c, hc, beq_iff_eq.1 hname⟩)
  rw [t.filter_emitted cfg h, List.append_eq_nil_iff] at hnil
  rw [t.prior_sweep cfg h, Option.toList_eq_nil_iff.1 hnil.2]
  rfl

/-- Wherever a sweep is cut off, each key's memory is whole. -/
theorem Tick.sweep_cut (t : Tick F) (cfg : BGPStabilityConfigSpec) {s : Records}
    (h : s.WellFormed) :
    Ends (reconcileBackends t.stamp (.ok (t.emitted cfg s)) t.policies) s
      (fun _ s' => s'.WellFormed ∧ ∀ k, t.Leaves cfg s k (s'.prior k))
      (fun _ s' => s'.WellFormed ∧ ∀ k, t.Leaves cfg s k (s'.prior k)) := by
  apply reconcileBackends_inv (I := fun s' => s'.WellFormed ∧ ∀ k, t.Leaves cfg s k (s'.prior k))
  · exact ⟨h, fun k => .inl rfl⟩
  · exact fun _ hs => hs
  · intro b hb s' hs'
    obtain ⟨c, hc, rfl⟩ := List.mem_map.1 hb
    refine ⟨hs'.1.applied (t.emitted_ipv4 cfg h c hc) _ _, ?_⟩
    intro k
    rw [prior_applied _ hs'.1 _ (t.memorable cfg h hc)]
    split
    · next hk =>
      subst hk
      exact t.leaves_memory cfg h hc
    · exact hs'.2 k
  · intro b hb s' hs' hnone
    obtain ⟨c, hc, rfl⟩ := List.mem_map.1 hb
    refine ⟨hs'.1.bared c _, ?_⟩
    intro k
    rw [prior_bared hnone]
    exact hs'.2 k
  · intro _ _ b _ hb s' hs'
    refine ⟨hs'.1.erase _, ?_⟩
    intro k
    rw [prior_erase]
    split
    · next hk =>
      subst hk
      exact .inr (.inl (t.prior_sweep_of_unnamed cfg h hb).symm)
    · exact hs'.2 k

end Cuts

section Congruence

theorem emission_congr {prior prior' : GoMap (PriorState F)}
    (h : prior.lookup k = prior'.lookup k) (now : Time) (candidates : List (BackendCandidate F))
    (cfg : BGPStabilityConfigSpec) :
    emission now candidates prior cfg k = emission now candidates prior' cfg k := by
  rw [emission, emission]
  cases hp : present candidates k with
  | none => simp only [h]
  | some c =>
    obtain ⟨_, _, rfl⟩ := present_eq_some hp
    simp only [evaluateCandidate, h]

theorem Tick.prior_sweep_congr (t : Tick F) (cfg : BGPStabilityConfigSpec) {s s' : Records}
    (hs : s.WellFormed) (hs' : s'.WellFormed)
    (h : s.prior k = (s'.prior k : Option (PriorState F))) :
    (t.sweep cfg s).prior k = ((t.sweep cfg s').prior k : Option (PriorState F)) := by
  have hlookup : (t.prior cfg s).lookup k = (t.prior cfg s').lookup k := by
    rw [Tick.prior, Tick.prior, Visit.lookup_prior, Visit.lookup_prior, h]
  rw [t.prior_sweep cfg hs, t.prior_sweep cfg hs', Tick.emission, Tick.emission,
    emission_congr hlookup]

end Congruence

/-- A run of sweeps under a configuration that may change, in which Snapshot may fail and any
call after it. -/
structure SweepRun (F : Type) where
  start : Records
  wellFormed : start.WellFormed
  tick : Nat → Tick F
  cfg : Nat → BGPStabilityConfigSpec
  snapshotError : Nat → Option String
  faults : Nat → List Bool

def SweepRun.snapshot (r : SweepRun F) (n : Nat) (s : Records) :
    Except String (List (BackendCandidate F)) :=
  match r.snapshotError n with
  | some e => .error e
  | none => sourceSnapshot (r.tick n).now ((r.tick n).reads (r.cfg n) s) (r.tick n).visit.order

def SweepRun.attempt (r : SweepRun F) (n : Nat) (s : Records) : Attempt F :=
  ⟨(r.tick n).stamp, r.snapshot n s, (r.tick n).policies, r.faults n⟩

def SweepRun.store (r : SweepRun F) : Nat → Records
  | 0 => r.start
  | n + 1 => (r.attempt n (r.store n)).leaves (r.store n)

def SweepRun.Returns (r : SweepRun F) (n : Nat) : Prop :=
  (r.attempt n (r.store n)).Succeeds (r.store n)

section Runs

variable (r : SweepRun F)

theorem SweepRun.snapshot_cases (n : Nat) (s : Records) :
    (∃ e, r.snapshot n s = .error e) ∨
      r.snapshot n s = .ok ((r.tick n).emitted (r.cfg n) s) := by
  rw [SweepRun.snapshot]
  cases r.snapshotError n with
  | some e => exact .inl ⟨e, rfl⟩
  | none => exact .inr ((r.tick n).sourceSnapshot_eq (r.cfg n) s)

theorem SweepRun.store_cut (h : (r.store n).WellFormed) :
    (r.store (n + 1)).WellFormed ∧
      ∀ k, (r.tick n).Leaves (r.cfg n) (r.store n) k ((r.store (n + 1)).prior k) := by
  rw [SweepRun.store]
  rcases r.snapshot_cases n (r.store n) with ⟨e, he⟩ | hok
  · rw [Attempt.leaves_of_error (a := r.attempt n (r.store n)) he]
    exact ⟨h, fun k => .inl rfl⟩
  · have hcut := Ends.store ((r.tick n).sweep_cut (r.cfg n) h) (r.faults n)
    rw [← hok] at hcut
    exact hcut

theorem SweepRun.store_wellFormed (n : Nat) : (r.store n).WellFormed := by
  induction n with
  | zero => exact r.wellFormed
  | succ n ih => exact (r.store_cut ih).1

theorem SweepRun.store_of_returns (h : r.Returns n) :
    r.store (n + 1) = (r.tick n).sweep (r.cfg n) (r.store n) := by
  rw [SweepRun.store]
  rcases r.snapshot_cases n (r.store n) with ⟨e, he⟩ | hok
  · rw [SweepRun.Returns, Attempt.Succeeds, Attempt.run, SweepRun.attempt, he] at h
    cases h
  · exact Attempt.leaves_eq_swept (a := r.attempt n (r.store n)) hok h

def SweepRun.Matches (k : String) (n : Nat) (s : Records) : Prop :=
  s.WellFormed ∧ (r.store n).prior k = (s.prior k : Option (PriorState F))

/-- However sweeps fail, what is remembered of a key is what some of the ticks make of it, each
taken once and as a whole, and every tick whose sweep has returned among them. -/
theorem SweepRun.prior_scheduled
    (hk : ∀ i < n, ∀ c ∈ (r.tick i).candidates, c.name = k → c.rejected = false) :
    ∃ ts, Schedule r.Returns n ts ∧
      (r.store n).prior k =
        ((ts.foldl (fun s i => (r.tick i).sweep (r.cfg i) s) r.start).prior k :
          Option (PriorState F)) := by
  have hstep : ∀ m < n, ∀ s', r.Matches k m s' →
      r.Matches k (m + 1) ((r.tick m).sweep (r.cfg m) s') ∨
        ¬ r.Returns m ∧ r.Matches k (m + 1) s' := by
    intro m hm s' ⟨hs', hprior⟩
    have hs := r.store_wellFormed m
    have hwhole := (r.tick m).prior_sweep_congr (r.cfg m) hs hs' hprior
    have hwf := (r.tick m).sweep_wellFormed (r.cfg m) hs'
    by_cases hr : r.Returns m
    · refine .inl ⟨hwf, ?_⟩
      rw [r.store_of_returns hr]
      exact hwhole
    · rcases (r.store_cut hs).2 k with hold | hnew | ⟨_, c, hc, hrej, hname⟩
      · exact .inr ⟨hr, hs', hold.trans hprior⟩
      · exact .inl ⟨hwf, hnew.trans hwhole⟩
      · rw [hk m hm c hc hname] at hrej
        cases hrej
  obtain ⟨ts, hts, _, h⟩ := exists_schedule (R := r.Matches k) (x := id) n ⟨r.wellFormed, rfl⟩ hstep
  exact ⟨ts, hts, h⟩

theorem reconcileBackends_phases {I J : Records → Prop} {s : Records}
    (candidates : List (BackendCandidate F)) (policies : List BGPBackendPolicy) (hs : I s)
    (happly : ∀ b ∈ buildAdvertisedBackends candidates policies, ∀ s, I s → I (applied stamp s b))
    (hbare : ∀ b ∈ buildAdvertisedBackends candidates policies, ∀ s, I s →
      s.lookup b.name = none → I (bared s b))
    (hwritten : J ((buildAdvertisedBackends candidates policies).foldl (applied stamp) s))
    (hprune : ∀ name ∉ candidates.map BackendCandidate.name,
      ∀ s : Records, J s → J (s.erase name)) :
    Ends (reconcileBackends stamp (.ok candidates) policies) s (fun _ => J)
      (fun _ s' => I s' ∨ J s') := by
  apply Ends.bind
  apply Ends.wrap
  apply Ends.call
  · exact .inl hs
  · exact fun _ _ => .inl hs
  · intro listed s₁ hlist
    cases hlist
    apply Ends.bind
    apply (Ends.each (I := fun done s' => I s' ∧ s' = done.foldl (applied stamp) s)
      (E := fun _ s' => I s' ∨ J s') ?_ ⟨hs, rfl⟩).mono
    · rintro _ s' ⟨_, rfl⟩
      rw [buildAdvertisedBackends_names]
      apply Ends.wrap
      apply (pruneStaleBackends_inv _ hwritten fun b _ hb => hprune b.name hb).mono
      · exact fun _ _ h => h
      · exact fun _ _ h => .inr h
    · exact fun _ _ h => h
    · rintro done b rest hl s' ⟨hI, rfl⟩
      have hb : b ∈ buildAdvertisedBackends candidates policies :=
        hl ▸ List.mem_append_right _ (.head _)
      apply Ends.wrap
      apply (applyBackend_ends stamp b _).mono
      · rintro _ _ rfl
        rw [List.foldl_append]
        exact ⟨happly b hb _ hI, rfl⟩
      · rintro _ s' (rfl | ⟨hnone, rfl⟩)
        · exact .inl hI
        · exact .inl (hbare b hb _ hI hnone)

theorem lookup_applied_ne_none {s : Records} (h : s.lookup k ≠ none) (stamp : Time)
    (b : AdvertisedBackend) : (applied stamp s b).lookup k ≠ none := by
  rw [lookup_applied]
  split
  · exact Option.some_ne_none _
  · exact h

theorem lookup_bared_ne_none {s : Records} (h : s.lookup k ≠ none)
    (hnone : s.lookup b.name = none) : (bared s b).lookup k ≠ none := by
  obtain ⟨r, hr⟩ := Option.ne_none_iff_exists'.1 h
  rw [lookup_bared_of_some hr hnone]
  exact Option.some_ne_none _

def Tick.Written (t : Tick F) (cfg : BGPStabilityConfigSpec) (s s' : Records) : Prop :=
  ∀ c ∈ t.emitted cfg s, s'.lookup c.name = (t.sweep cfg s).lookup c.name

theorem Tick.sweep_writes_first (t : Tick F) (cfg : BGPStabilityConfigSpec) {s : Records}
    (hthere : s.lookup k ≠ none) :
    Ends (reconcileBackends t.stamp (.ok (t.emitted cfg s)) t.policies) s
      (fun _ => t.Written cfg s) (fun _ s' => s'.lookup k ≠ none ∨ t.Written cfg s s') := by
  apply reconcileBackends_phases (I := fun s' => s'.lookup k ≠ none) _ _ hthere
  · exact fun b _ s' hs' => lookup_applied_ne_none hs' _ b
  · exact fun b _ s' hs' hnone => lookup_bared_ne_none hs' hnone
  · intro c hc
    rw [Tick.sweep, swept, lookup_pruned_of_mem _ (List.mem_map_of_mem hc)]
  · intro name hname s' hs' c hc
    have hne : c.name ≠ name := fun he => hname (he ▸ List.mem_map_of_mem hc)
    rw [AList.lookup_erase_ne hne]
    exact hs' c hc

theorem Tick.mem_sweep (t : Tick F) (cfg : BGPStabilityConfigSpec) {s : Records}
    (hc : c ∈ t.emitted cfg s) : c.name ∈ t.sweep cfg s := by
  have hmem := List.mem_map_of_mem (f := BackendCandidate.name) hc
  rw [← AList.lookup_isSome, Tick.sweep, swept, lookup_pruned_of_mem _ hmem, lookup_foldl_applied]
  apply rewritten_isSome
  rw [buildAdvertisedBackends_names]
  exact .inr hmem

/-- A record is deleted when no backend of the snapshot has its name, and not before each of them
has the record a whole sweep leaves. -/
theorem SweepRun.deleted_last (hk : k ∈ r.store n) (hgone : k ∉ r.store (n + 1)) :
    ∀ c ∈ (r.tick n).emitted (r.cfg n) (r.store n), c.name ≠ k ∧ c.name ∈ r.store (n + 1) ∧
      (r.store (n + 1)).lookup c.name =
        ((r.tick n).sweep (r.cfg n) (r.store n)).lookup c.name := by
  have hthere : (r.store n).lookup k ≠ none := fun h => AList.lookup_eq_none.1 h hk
  have hwritten : (r.tick n).Written (r.cfg n) (r.store n) (r.store (n + 1)) := by
    rcases r.snapshot_cases n (r.store n) with ⟨e, he⟩ | hok
    · rw [SweepRun.store, Attempt.leaves_of_error (a := r.attempt n (r.store n)) he] at hgone
      exact absurd hk hgone
    · have hends := (r.tick n).sweep_writes_first (r.cfg n) hthere
      rw [← hok] at hends
      have hstore := (hends.mono (fun _ _ h => .inr h) (fun _ _ h => h)).store (r.faults n)
      exact hstore.resolve_left fun h => h (AList.lookup_eq_none.2 hgone)
  intro c hc
  have hmem : c.name ∈ r.store (n + 1) := by
    rw [← AList.lookup_isSome, hwritten c hc, AList.lookup_isSome]
    exact (r.tick n).mem_sweep (r.cfg n) hc
  exact ⟨fun he => hgone (he ▸ hmem), hmem, hwritten c hc⟩

end Runs

/-- A record that was created and never got its status. -/
def bareRecords : Records :=
  AList.singleton "old" ⟨[(managedByLabel, managedByValue)], .empty⟩

theorem bareRecords_wellFormed : bareRecords.WellFormed := by
  have hbare {k : String} {r : Record} (hr : bareRecords.lookup k = some r) :
      r = ⟨[(managedByLabel, managedByValue)], .empty⟩ := by
    obtain ⟨_, hr⟩ := List.mem_singleton.1 (AList.mem_lookup_iff.1 hr)
    rfl
  refine ⟨?_, ?_, ?_⟩
  · intro k r hr
    rw [hbare hr]
    decide
  · intro k r hr ho
    rw [hbare hr] at ho
    cases ho
  · intro k r hr ho
    rw [hbare hr] at ho
    cases ho

/-- A route that stays, in sweeps of which the second fails at its status update. -/
def retriedRun : SweepRun Rat where
  start := bareRecords
  wellFormed := bareRecords_wellFormed
  tick n := sampleTick (n * 5) .accepted
  cfg _ := ⟨some (.seconds 10), none, none⟩
  snapshotError _ := none
  faults n := if n = 1 then [false, false, true] else []

theorem prior_scheduled_retried :
    ∃ ts, Schedule retriedRun.Returns 3 ts ∧
      (retriedRun.store 3).prior "10-0-0-0-24-edge" =
        ((ts.foldl (fun s i => (retriedRun.tick i).sweep (retriedRun.cfg i) s)
          retriedRun.start).prior "10-0-0-0-24-edge" : Option (PriorState Rat)) := by
  apply retriedRun.prior_scheduled
  intro i _ c hc _
  cases List.mem_singleton.1 hc
  rfl

theorem deleted_last_old : "10-0-0-0-24-edge" ∈ retriedRun.store 1 := by
  have hold : "old" ∈ retriedRun.store 0 := by decide +kernel
  have hgone : "old" ∉ retriedRun.store 1 := by decide +kernel
  have hemitted : ∃ c ∈ (retriedRun.tick 0).emitted (retriedRun.cfg 0) (retriedRun.store 0),
      c.name = "10-0-0-0-24-edge" := by
    decide +kernel
  obtain ⟨c, hc, hname⟩ := hemitted
  exact hname ▸ (retriedRun.deleted_last hold hgone c hc).2.1

end Kreg
