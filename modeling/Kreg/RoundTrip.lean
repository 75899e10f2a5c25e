import Kreg.Snapshot
import Kreg.StoredPrior

namespace Kreg
open Float64 ApiServer
set_option autoImplicit true

variable {F : Type} [Float64 F]

/-- All four timestamps are ones the server stores unchanged. -/
structure DampingInfo.Stamped (d : DampingInfo F) : Prop where
  observed : d.lastObservedAt.Whole
  withdrawn : ∀ t ∈ d.withdrawnAt, t.Whole
  suppressed : ∀ t ∈ d.suppressedSince, t.Whole
  pending : ∀ t ∈ d.pendingSince, t.Whole

/-- A state the damper owns; `Active` says nothing about why. -/
def DampingInfo.Verdict (d : DampingInfo F) : Prop :=
  d.state = .active ∧ d.reason = "" ∨ d.state = .pending ∨ d.state = .holdDown ∨
    d.state = .dampened

/-- The candidate as its record remembers it: an empty slice comes back nil. -/
def BackendCandidate.recorded (c : BackendCandidate F) : BackendCandidate F :=
  { c with
    asPath := c.asPath.stored
    largeCommunities := c.largeCommunities.stored
    rejected := false
    reason := ""
    damping := none }

def DampingInfo.recorded (d : DampingInfo F) : DampingInfo F :=
  { d with score := ofInt (clampToInt32 d.score).toInt }

def DampingInfo.restored (d : DampingInfo F) : DampingInfo F :=
  { d.recorded with
    lastObservedAt := d.lastObservedAt.truncate
    withdrawnAt := (metaTimeOrNil d.withdrawnAt).map Time.truncate
    suppressedSince := (metaTimeOrNil d.suppressedSince).map Time.truncate
    pendingSince := (metaTimeOrNil d.pendingSince).map Time.truncate }

/-- The verdict as the next tick finds it: not at all if it was reached at Go's zero time. -/
def DampingInfo.kept (d : DampingInfo F) : Option (DampingInfo F) :=
  if d.lastObservedAt.isZero then none else some d.restored

theorem DampingInfo.kept_eq_restored {d : DampingInfo F} (h : d.lastObservedAt.isZero = false) :
    d.kept = some d.restored := by
  rw [DampingInfo.kept, h]
  rfl

theorem DampingInfo.eq_restored_of_kept {d p : DampingInfo F} (h : d.kept = some p) :
    p = d.restored := by
  rw [DampingInfo.kept] at h
  split at h
  · cases h
  · exact (Option.some.inj h).symm

theorem metaTime_stored {t : Time} (h : t.Whole) :
    (metaTime t).map Time.truncate = some t := by
  simp only [metaTime, h.isZero_eq, Bool.false_eq_true, ↓reduceIte, Option.map_some,
    h.truncate_eq]

theorem metaTimeOrNil_stored {o : Option Time} (h : ∀ t ∈ o, t.Whole) :
    (metaTimeOrNil o).map Time.truncate = o := by
  cases o with
  | none => rfl
  | some t => exact metaTime_stored (h t rfl)

theorem uint32_stored (n : UInt32) : uint32OfInt64 n.toUInt64.toInt64 = n := by
  rw [uint32OfInt64, UInt64.toUInt64_toInt64, UInt32.toUInt32_toUInt64]

theorem asPath_stored (path : GoSlice UInt32) :
    asPathUint32 (asPathInt64 path).stored = path.stored := by
  cases path with
  | nil => rfl
  | made l =>
    cases l with
    | nil => rfl
    | cons n l =>
      have hmap : ((n :: l).map fun asn => asn.toUInt64.toInt64).map uint32OfInt64 = n :: l := by
        rw [List.map_map]
        exact (List.map_congr_left fun n _ => uint32_stored n).trans (List.map_id _)
      exact congrArg GoSlice.made hmap

theorem candidateFromStatus_buildOne (c : BackendCandidate F) (policies : List BGPBackendPolicy) :
    candidateFromStatus (buildOne c policies).status.stored = c.recorded := by
  have hm := uint32_stored c.med
  have ha := asPath_stored c.asPath
  simp only [candidateFromStatus, buildOne, AdvertisedBackendStatus.stored,
    BackendAttributes.stored, BackendCandidate.recorded, hm, ha]

omit [Float64 F] in
theorem stateAndReason_of_verdict {c : BackendCandidate F} (hr : c.rejected = false)
    (hd : c.damping = some d) (hv : d.Verdict) :
    stateAndReason c =
      if d.state = .active then (if c.drain then .draining else .active, "")
      else (d.state, d.reason) := by
  simp only [stateAndReason, hr, hd, Bool.false_eq_true, ↓reduceIte]
  rcases hv with ⟨hs, _⟩ | hs | hs | hs
  · simp only [hs, ↓reduceIte]
    cases c.drain <;> rfl
  · simp only [hs, reduceCtorEq, ↓reduceIte]
  · simp only [hs, reduceCtorEq, ↓reduceIte]
  · simp only [hs, reduceCtorEq, ↓reduceIte]

theorem priorDampingState_buildOne (policies : List BGPBackendPolicy) {c : BackendCandidate F}
    (hr : c.rejected = false) (hd : c.damping = some d) (hv : d.Verdict) :
    priorDampingState (buildOne c policies).status.stored = (d.state, d.reason) := by
  simp only [priorDampingState, buildOne, AdvertisedBackendStatus.stored, stateAndReason, hr, hd,
    Bool.false_eq_true, ↓reduceIte]
  rcases hv with ⟨hs, he⟩ | hs | hs | hs
  · rw [hs, he]
    cases c.drain <;> rfl
  · simp only [hs]
  · simp only [hs]
  · simp only [hs]

/-- A damped candidate survives the write to its record and the read on the next tick. -/
theorem priorState_buildOne (policies : List BGPBackendPolicy) {c : BackendCandidate F}
    (hr : c.rejected = false) (hd : c.damping = some d) (hv : d.Verdict) :
    priorState (buildOne c policies).status.stored = d.kept.map fun p => ⟨c.recorded, p⟩ := by
  have hp := priorDampingState_buildOne policies hr hd hv
  have hstab : (buildOne c policies).status.stored.stability = (stabilityStatus d).stored := by
    simp only [buildOne, AdvertisedBackendStatus.stored, hd, Option.map_some, Option.getD_some]
  rw [priorState, candidateFromStatus_buildOne, hp, hstab]
  simp only [stabilityStatus, StabilityStatus.stored, DampingInfo.kept, metaTime]
  cases d.lastObservedAt.isZero <;> rfl

theorem DampingInfo.Stamped.kept_eq {d : DampingInfo F} (h : d.Stamped) :
    d.kept = some d.recorded := by
  rw [DampingInfo.kept_eq_restored h.observed.isZero_eq, DampingInfo.restored,
    h.observed.truncate_eq, metaTimeOrNil_stored h.withdrawn, metaTimeOrNil_stored h.suppressed,
    metaTimeOrNil_stored h.pending]
  rfl

theorem priorState_buildOne_undamped (policies : List BGPBackendPolicy) {c : BackendCandidate F}
    (hd : c.damping = none) :
    priorState (F := F) (buildOne c policies).status.stored = none := by
  simp only [priorState, buildOne, AdvertisedBackendStatus.stored, hd, Option.map_none,
    Option.getD_none, StabilityStatus.zero, StabilityStatus.stored]

theorem written_managed (stamp : Time) {b : AdvertisedBackend}
    (hb : b.labels = [(managedByLabel, managedByValue)]) {o : Option Record}
    (ho : ∀ r ∈ o, r.managed = true) : (written stamp b o).managed = true := by
  cases o with
  | none =>
    simp only [written, Record.managed, hb]
    decide
  | some r => exact ho r rfl

theorem written_priorState (stamp : Time) (b : AdvertisedBackend) (o : Option Record) :
    priorState (F := F) (written stamp b o).status = priorState b.status.stored := by
  cases o <;> rfl

/-- What `l` makes of the prior state under `k`: its last object of that name decides. -/
def reread (k : String) (l : List AdvertisedBackend) (o : Option (PriorState F)) :
    Option (PriorState F) :=
  l.foldl (fun o b => if b.name = k then priorState b.status.stored else o) o

theorem rewritten_prior (stamp : Time) (k : String) (l : List AdvertisedBackend)
    (hl : ∀ b ∈ l, b.labels = [(managedByLabel, managedByValue)]) (o : Option Record)
    (ho : ∀ r ∈ o, r.managed = true) :
    ((rewritten stamp k o l).bind fun r =>
          if r.managed then priorState (F := F) r.status else none) =
        reread k l (o.bind fun r => if r.managed then priorState r.status else none) ∧
      ∀ r ∈ rewritten stamp k o l, r.managed = true := by
  induction l generalizing o with
  | nil => exact ⟨rfl, ho⟩
  | cons b l ih =>
    have hrest := fun b hb => hl b (.tail _ hb)
    simp only [rewritten, reread, List.foldl_cons] at ih ⊢
    by_cases he : b.name = k
    · have hm := written_managed stamp (hl b (.head _)) ho
      have hp := written_priorState (F := F) stamp b o
      simp only [he, ↓reduceIte]
      have hi := ih hrest (some (written stamp b o)) fun r hr => by cases hr; exact hm
      simp only [Option.bind_some, hm, ↓reduceIte, hp] at hi
      exact hi
    · simp only [he, ↓reduceIte]
      exact ih hrest o ho

theorem buildAdvertisedBackends_labels (candidates : List (BackendCandidate F))
    (policies : List BGPBackendPolicy) :
    ∀ b ∈ buildAdvertisedBackends candidates policies,
      b.labels = [(managedByLabel, managedByValue)] := by
  intro b hb
  obtain ⟨c, _, rfl⟩ := List.mem_map.1 hb
  rfl

theorem reread_eq_getLast (k : String) (l : List AdvertisedBackend) (o : Option (PriorState F)) :
    reread k l o =
      ((l.filter fun b => b.name == k).getLast?.map fun b =>
        priorState b.status.stored).getD o := by
  induction l generalizing o with
  | nil => rfl
  | cons b l ih =>
    rw [reread, List.foldl_cons]
    have hcons : (b :: l).filter (fun b => b.name == k) =
        if b.name = k then b :: l.filter (fun b => b.name == k)
        else l.filter fun b => b.name == k := by
      simp only [List.filter_cons, beq_iff_eq]
    by_cases he : b.name = k
    · rw [if_pos he, hcons, if_pos he, List.getLast?_cons]
      refine (ih _).trans ?_
      cases (l.filter fun b => b.name == k).getLast? <;> rfl
    · rw [if_neg he, hcons, if_neg he]
      exact ih o

theorem reread_of_notMem (h : k ∉ l.map AdvertisedBackend.name) (o : Option (PriorState F)) :
    reread k l o = o := by
  induction l generalizing o with
  | nil => rfl
  | cons b l ih =>
    rw [List.map_cons, List.mem_cons, not_or] at h
    rw [reread, List.foldl_cons, if_neg (Ne.symm h.1)]
    exact ih h.2 o

theorem prior_swept (stamp : Time) (candidates : List (BackendCandidate F))
    (policies : List BGPBackendPolicy) (s : Records)
    (hs : k ∈ candidates.map BackendCandidate.name →
      ∀ r ∈ s.lookup k, r.managed = true) :
    (swept stamp candidates policies s).prior k =
      reread k (buildAdvertisedBackends candidates policies) (none : Option (PriorState F)) := by
  have hnames := buildAdvertisedBackends_names candidates policies
  rw [Records.prior, swept]
  by_cases hk : k ∈ candidates.map BackendCandidate.name
  · rw [lookup_pruned_of_mem _ hk, lookup_foldl_applied,
      (rewritten_prior stamp k _ (buildAdvertisedBackends_labels _ _) _ (hs hk)).1]
    rw [← hnames] at hk
    clear hs hnames
    generalize buildAdvertisedBackends candidates policies = l at hk
    generalize (s.lookup k).bind _ = o
    -- the first object of that name overwrites whatever was there
    induction l generalizing o with
    | nil => cases hk
    | cons b l ih =>
      by_cases he : b.name = k
      · simp only [reread, List.foldl_cons, he, ↓reduceIte]
      · simp only [reread, List.foldl_cons, he, ↓reduceIte] at ih ⊢
        rw [List.map_cons, List.mem_cons] at hk
        exact ih (hk.resolve_left (Ne.symm he)) o
  · rw [lookup_pruned_of_notMem _ hk, lookup_foldl_applied]
    rw [← hnames] at hk
    rw [reread_of_notMem hk]
    cases rewritten stamp k (s.lookup k) (buildAdvertisedBackends candidates policies) with
    | none => rfl
    | some r =>
      cases hm : r.managed with
      | true => simp only [Option.filter_some, hm, Bool.not_true, Bool.false_eq_true, ↓reduceIte,
          Option.bind_none]
      | false => simp only [Option.filter_some, hm, Bool.not_false, ↓reduceIte, Option.bind_some,
          Bool.false_eq_true]

theorem buildAdvertisedBackends_filter (candidates : List (BackendCandidate F))
    (policies : List BGPBackendPolicy) (k : String) :
    (buildAdvertisedBackends candidates policies).filter (fun b => b.name == k) =
      (candidates.filter fun c => c.name == k).map fun c => buildOne c policies := by
  rw [buildAdvertisedBackends, List.filter_map]
  rfl

theorem lookup_swept_of_filter {candidates : List (BackendCandidate F)}
    (h : (candidates.filter fun c => c.name == k) = [c]) (stamp : Time)
    (policies : List BGPBackendPolicy) (s : Records) :
    (swept stamp candidates policies s).lookup k =
      some (written stamp (buildOne c policies) (s.lookup k)) := by
  have hc : c ∈ candidates.filter fun c => c.name == k := h ▸ .head _
  obtain ⟨hm, hk⟩ := List.mem_filter.1 hc
  rw [beq_iff_eq] at hk
  subst hk
  rw [swept, lookup_pruned_of_mem _ (List.mem_map_of_mem hm), lookup_foldl_applied,
    rewritten_filter, buildAdvertisedBackends_filter, h]
  exact if_pos rfl

theorem lookup_swept_of_absent {candidates : List (BackendCandidate F)}
    (h : (candidates.filter fun c => c.name == k) = []) {s : Records}
    (hs : ∀ r, s.lookup k = some r → r.managed = true) (stamp : Time)
    (policies : List BGPBackendPolicy) :
    (swept stamp candidates policies s).lookup k = none := by
  have hk : k ∉ candidates.map BackendCandidate.name := by
    intro hk
    obtain ⟨c, hc, hn⟩ := List.mem_map.1 hk
    exact List.filter_eq_nil_iff.1 h c hc (beq_iff_eq.2 hn)
  rw [swept, lookup_pruned_of_notMem _ hk, lookup_foldl_applied, rewritten_filter,
    buildAdvertisedBackends_filter, h]
  change (s.lookup k).filter _ = none
  cases hr : s.lookup k with
  | none => rfl
  | some r => rw [Option.filter_some, hs r hr, Bool.not_true, if_neg Bool.false_ne_true]

theorem prior_swept_getLast (stamp : Time) (candidates : List (BackendCandidate F))
    (policies : List BGPBackendPolicy) (s : Records)
    (hs : k ∈ candidates.map BackendCandidate.name → ∀ r ∈ s.lookup k, r.managed = true) :
    (swept stamp candidates policies s).prior k =
      (candidates.filter fun c => c.name == k).getLast?.bind fun c =>
        priorState (F := F) (buildOne c policies).status.stored := by
  rw [prior_swept stamp candidates policies s hs, reread_eq_getLast,
    buildAdvertisedBackends_filter, List.getLast?_map]
  cases (candidates.filter fun c => c.name == k).getLast? <;> rfl

end Kreg
