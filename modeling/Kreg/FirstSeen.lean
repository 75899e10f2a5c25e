import Kreg.DurableMemory

namespace Kreg
open ApiServer
set_option autoImplicit true

def Records.Undated (s : Records) (k : String) : Prop :=
  ∃ r, s.lookup k = some r ∧ r.status.firstSeen = none

def Records.DatedInSeconds (s : Records) : Prop :=
  ∀ k r, s.lookup k = some r → r.status.firstSeen.map Time.truncate = r.status.firstSeen

theorem map_truncate_truncate (o : Option Time) :
    (o.map Time.truncate).map Time.truncate = o.map Time.truncate := by
  cases o with
  | none => rfl
  | some t => rw [Option.map_some, Option.map_some, Time.truncate_truncate]

theorem written_firstSeen (stamp : Time) (b : AdvertisedBackend) (o : Option Record) :
    (written stamp b o).status.firstSeen = match o with
      | none => some stamp.truncate
      | some r => r.status.firstSeen.map Time.truncate := by
  cases o <;> rfl

theorem written_datedInSeconds (stamp : Time) (b : AdvertisedBackend) (o : Option Record) :
    (written stamp b o).status.firstSeen.map Time.truncate =
      (written stamp b o).status.firstSeen := by
  rw [written_firstSeen]
  cases o with
  | none => rw [Option.map_some, Time.truncate_truncate]
  | some r => exact map_truncate_truncate _

theorem written_undated_iff (stamp : Time) (b : AdvertisedBackend) (o : Option Record) :
    (written stamp b o).status.firstSeen = none ↔ ∃ r, o = some r ∧ r.status.firstSeen = none := by
  rw [written_firstSeen]
  cases o with
  | none => simp only [reduceCtorEq, false_and, exists_false]
  | some r => simp only [Option.map_eq_none_iff, Option.some.injEq, exists_eq_left']

theorem rewritten_undated_iff (stamp : Time) (k : String) (l : List AdvertisedBackend)
    (o : Option Record) :
    (∃ r, rewritten stamp k o l = some r ∧ r.status.firstSeen = none) ↔
      ∃ r, o = some r ∧ r.status.firstSeen = none := by
  induction l generalizing o with
  | nil => exact Iff.rfl
  | cons b l ih =>
    rw [rewritten_cons, ih]
    split
    · simp only [Option.some.injEq, exists_eq_left', written_undated_iff]
    · exact Iff.rfl

theorem rewritten_isSome (stamp : Time) (k : String) (l : List AdvertisedBackend)
    (o : Option Record) (h : o.isSome = true ∨ k ∈ l.map AdvertisedBackend.name) :
    (rewritten stamp k o l).isSome = true := by
  induction l generalizing o with
  | nil =>
    cases h with
    | inl h => exact h
    | inr h => cases h
  | cons b l ih =>
    rw [rewritten_cons]
    apply ih
    split
    · exact .inl rfl
    · next hne =>
      cases h with
      | inl h => exact .inl h
      | inr h =>
        cases List.mem_cons.1 h with
        | inl he => exact absurd he.symm hne
        | inr h => exact .inr h

/-- One `Reconcile` of the AdvertisedBackend controller: the view it gets and which of its calls
fail. -/
structure Attempt (F : Type) where
  stamp : Time
  snapshot : Except String (List (BackendCandidate F))
  policies : List BGPBackendPolicy
  faults : List Bool

section Attempts

variable {F : Type} [Float64 F]

def Attempt.run (a : Attempt F) (s : Records) : Except ApiError Unit × World Records :=
  reconcileBackends a.stamp a.snapshot a.policies ⟨s, a.faults⟩

def Attempt.Succeeds (a : Attempt F) (s : Records) : Prop :=
  (a.run s).1 = .ok ()

def Attempt.leaves (a : Attempt F) (s : Records) : Records :=
  (a.run s).2.store

theorem Attempt.leaves_of_error {a : Attempt F} (h : a.snapshot = .error e) (s : Records) :
    a.leaves s = s := by
  rw [Attempt.leaves, Attempt.run, h]
  rfl

theorem Attempt.leaves_eq_swept {a : Attempt F} (hsnap : a.snapshot = .ok candidates)
    (hok : a.Succeeds s) : a.leaves s = swept a.stamp candidates a.policies s := by
  have hends := reconcileBackends_ends a.stamp candidates a.policies s
  rw [← hsnap] at hends
  have hrun : reconcileBackends a.stamp a.snapshot a.policies ⟨s, a.faults⟩ =
      (.ok (), (a.run s).2) := by
    rw [← hok]
    rfl
  exact hends.of_ok hrun

theorem Attempt.undated_leaves_iff {a : Attempt F} (hsnap : a.snapshot = .ok candidates)
    (hok : a.Succeeds s) (hc : c ∈ candidates) :
    (a.leaves s).Undated c.name ↔ s.Undated c.name := by
  rw [Attempt.leaves_eq_swept hsnap hok, Records.Undated, swept,
    lookup_pruned_of_mem _ (List.mem_map_of_mem hc), lookup_foldl_applied]
  exact rewritten_undated_iff _ _ _ _

theorem Attempt.mem_leaves {a : Attempt F} (hsnap : a.snapshot = .ok candidates)
    (hok : a.Succeeds s) (hc : c ∈ candidates) :
    ∃ r, (a.leaves s).lookup c.name = some r := by
  rw [Attempt.leaves_eq_swept hsnap hok, swept,
    lookup_pruned_of_mem _ (List.mem_map_of_mem hc), lookup_foldl_applied]
  apply Option.isSome_iff_exists.1
  apply rewritten_isSome
  rw [buildAdvertisedBackends_names]
  exact .inr (List.mem_map_of_mem hc)

/-- What every write and deletion of a sweep keeps holds of the records it leaves, whichever call
it stops at. -/
theorem Attempt.leaves_inv (a : Attempt F) {I J : Records → Prop} (hs : I s)
    (hIJ : ∀ s, I s → J s) (happly : ∀ b s, I s → I (applied a.stamp s b))
    (hbare : ∀ b s, I s → s.lookup b.name = none → I (bared s b))
    (herase : ∀ name s, J s → J (s.erase name)) : J (a.leaves s) := by
  cases hsnap : a.snapshot with
  | error e =>
    rw [Attempt.leaves_of_error hsnap]
    exact hIJ s hs
  | ok candidates =>
    have hends : Ends (reconcileBackends a.stamp a.snapshot a.policies) s (fun _ => J)
        (fun _ => J) := by
      rw [hsnap]
      apply reconcileBackends_inv candidates a.policies hs hIJ
      · exact fun b _ => happly b
      · exact fun b _ => hbare b
      · exact fun _ _ b _ _ => herase b.name
    exact hends.store a.faults

theorem Attempt.leaves_firstSeen (a : Attempt F) (hs : s.DatedInSeconds)
    (hr : s.lookup k = some r) (hr' : (a.leaves s).lookup k = some r') :
    r'.status.firstSeen = r.status.firstSeen := by
  apply a.leaves_inv
    (I := fun s' => ∃ r', s'.lookup k = some r' ∧ r'.status.firstSeen = r.status.firstSeen)
    (J := fun s' => ∀ r', s'.lookup k = some r' → r'.status.firstSeen = r.status.firstSeen)
    _ _ _ _ _ r' hr'
  · exact ⟨r, hr, rfl⟩
  · rintro s' ⟨r₁, h₁, hd⟩ r₂ h₂
    rw [h₁] at h₂
    cases h₂
    exact hd
  · rintro b s' ⟨r₁, h₁, hd⟩
    rw [lookup_applied, h₁]
    split
    · refine ⟨_, rfl, ?_⟩
      rw [written_firstSeen]
      simp only [hd, hs k r hr]
    · exact ⟨r₁, rfl, hd⟩
  · rintro b s' ⟨r₁, h₁, hd⟩ hnone
    exact ⟨r₁, lookup_bared_of_some h₁ hnone, hd⟩
  · exact fun _ s' hs' r₁ h₁ => hs' r₁ (lookup_of_erase h₁)

theorem Attempt.leaves_datedInSeconds (a : Attempt F) (hs : s.DatedInSeconds) :
    (a.leaves s).DatedInSeconds := by
  apply a.leaves_inv hs fun _ h => h
  · intro b s' hs' k r hr
    rw [lookup_applied] at hr
    split at hr
    · cases hr
      exact written_datedInSeconds _ _ _
    · exact hs' k r hr
  · intro b s' hs' _ k r hr
    by_cases he : k = b.name
    · subst he
      rw [bared, AList.lookup_insert] at hr
      cases hr
      rfl
    · rw [bared, AList.lookup_insert_ne he] at hr
      exact hs' k r hr
  · exact fun _ s' hs' k r hr => hs' k r (lookup_of_erase hr)

structure Attempts (F : Type) where
  start : Records
  dated : start.DatedInSeconds
  attempt : Nat → Attempt F

def Attempts.store (r : Attempts F) : Nat → Records
  | 0 => r.start
  | n + 1 => (r.attempt n).leaves (r.store n)

theorem Attempts.store_datedInSeconds (r : Attempts F) (n : Nat) :
    (r.store n).DatedInSeconds := by
  induction n with
  | zero => exact r.dated
  | succ n ih => exact (r.attempt n).leaves_datedInSeconds ih

theorem Attempts.firstSeen_eq (r : Attempts F) (hnm : n ≤ m)
    (hkept : ∀ i, n ≤ i → i ≤ m → k ∈ r.store i) (hn : (r.store n).lookup k = some b)
    (hm : (r.store m).lookup k = some b') : b'.status.firstSeen = b.status.firstSeen := by
  induction hnm generalizing b' with
  | refl =>
    rw [hn] at hm
    cases hm
    rfl
  | @step m hnm ih =>
    have hmem : k ∈ r.store m := hkept m hnm (Nat.le_succ m)
    obtain ⟨b₁, hb₁⟩ := Option.isSome_iff_exists.1 (AList.lookup_isSome.2 hmem)
    rw [(r.attempt m).leaves_firstSeen (r.store_datedInSeconds m) hb₁ hm]
    exact ih (fun i hi hle => hkept i hi (Nat.le_succ_of_le hle)) hb₁

/-- A sweep that succeeds leaves all of its records dated exactly if none of them lay there
undated, and from then on a date stands as long as its record does. -/
theorem firstSeen_iff_none_undated (r : Attempts F)
    (hsnap : (r.attempt n).snapshot = .ok candidates) (hok : (r.attempt n).Succeeds (r.store n)) :
    ((∀ c ∈ candidates, ∃ b t, (r.store (n + 1)).lookup c.name = some b ∧
        b.status.firstSeen = some t) ↔
      ∀ c ∈ candidates, ¬ (r.store n).Undated c.name) ∧
    ∀ k m b b', n + 1 ≤ m → (∀ i, n + 1 ≤ i → i ≤ m → k ∈ r.store i) →
      (r.store (n + 1)).lookup k = some b → (r.store m).lookup k = some b' →
        b'.status.firstSeen = b.status.firstSeen := by
  refine ⟨forall₂_congr fun c hc => ?_, fun k m b b' hnm hkept => r.firstSeen_eq hnm hkept⟩
  rw [← Attempt.undated_leaves_iff hsnap hok hc]
  obtain ⟨b, hb⟩ := Attempt.mem_leaves hsnap hok hc
  simp only [Attempts.store, Records.Undated, hb, Option.some.injEq, exists_eq_left',
    exists_and_left, ← Option.ne_none_iff_exists', ne_eq]

end Attempts

/-- The same view twice; the calls of the first sweep that fail are given. -/
def spokeAttempts (faults : List Bool) : Attempts Rat where
  start := ∅
  dated := by
    intro k r hr
    rw [AList.lookup_empty] at hr
    cases hr
  attempt n := ⟨⟨second⟩, .ok [spokeCandidate], [], if n = 0 then faults else []⟩

/-- The create fails, and nothing is left behind; the retry dates its record. -/
theorem firstSeen_iff_none_undated_recreated :
    ¬ ((spokeAttempts [false, false, true]).attempt 0).Succeeds
        ((spokeAttempts [false, false, true]).store 0) ∧
      ∃ b t, ((spokeAttempts [false, false, true]).store 2).lookup "10-1-0-0-24-spoke" = some b ∧
        b.status.firstSeen = some t := by
  have hok : ((spokeAttempts [false, false, true]).attempt 1).Succeeds
      ((spokeAttempts [false, false, true]).store 1) := rfl
  refine ⟨nofun, ?_⟩
  apply ((firstSeen_iff_none_undated _ rfl hok).1.2 ?_) spokeCandidate (.head _)
  intro c _ h
  obtain ⟨b, hb, _⟩ := h
  change (∅ : Records).lookup c.name = some b at hb
  rw [AList.lookup_empty] at hb
  cases hb

/-- The status update that follows the create fails; the retry succeeds and leaves no date. -/
theorem firstSeen_missing_after_retry :
    ((spokeAttempts [false, false, false, true]).attempt 1).Succeeds
        ((spokeAttempts [false, false, false, true]).store 1) ∧
      ((spokeAttempts [false, false, false, true]).store 2).Undated "10-1-0-0-24-spoke" :=
  ⟨rfl, _, rfl, rfl⟩

end Kreg
