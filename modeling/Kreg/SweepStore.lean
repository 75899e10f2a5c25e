import Kreg.Sweep

namespace Kreg
open ApiServer
set_option autoImplicit true

def applied (stamp : Time) (s : Records) (b : AdvertisedBackend) : Records :=
  match s.lookup b.name with
  | none => s.insert b.name ⟨b.labels, (createdStatus stamp b.status).stored⟩
  | some r => s.insert b.name { r with status := (updatedStatus stamp r.status b.status).stored }

theorem getRecord_gets (name : String) : Gets (getRecord name) (AList.lookup name) where
  found s r h := by simp only [getRecord, h]
  missing s h := ⟨⟨true, name ++ " not found"⟩, rfl, by simp only [getRecord, h]⟩

theorem applyBackend_completes (stamp : Time) (b : AdvertisedBackend) (s : Records) :
    Completes (applyBackend stamp b) s () (applied stamp s b) := by
  rw [applied]
  cases h : s.lookup b.name with
  | none =>
    obtain ⟨e, he, hget⟩ := Completes.get_missing (getRecord_gets b.name) h
    have hcreate : createRecord b.name b.labels s =
        .ok ((), s.insert b.name ⟨b.labels, .empty⟩) := by
      simp only [createRecord, h]
    have hupdate : updateStatus b.name (createdStatus stamp b.status)
        (s.insert b.name ⟨b.labels, .empty⟩) =
          .ok ((), s.insert b.name ⟨b.labels, (createdStatus stamp b.status).stored⟩) := by
      simp only [updateStatus, AList.lookup_insert, AList.insert_insert]
    apply Completes.bind hget
    simp only [he, ↓reduceIte]
    exact .bind (.wrap (.call hcreate) _) (.call hupdate)
  | some r =>
    have hupdate : updateStatus b.name (updatedStatus stamp r.status b.status) s =
        .ok ((), s.insert b.name
          { r with status := (updatedStatus stamp r.status b.status).stored }) := by
      simp only [updateStatus, h]
    exact .bind (.get (getRecord_gets b.name) h) (.call hupdate)

/-- The store `applyBackend` leaves if it is cut off between its create and its status update. -/
def bared (s : Records) (b : AdvertisedBackend) : Records :=
  s.insert b.name ⟨b.labels, .empty⟩

theorem lookup_bared_of_some {s : Records} (h : s.lookup k = some r)
    (hnone : s.lookup b.name = none) : (bared s b).lookup k = some r := by
  have hne : k ≠ b.name := by
    rintro rfl
    rw [hnone] at h
    cases h
  rw [bared, AList.lookup_insert_ne hne]
  exact h

theorem lookup_of_erase {s : Records} (h : (s.erase name).lookup k = some r) :
    s.lookup k = some r := by
  by_cases he : k = name
  · subst he
    rw [AList.lookup_erase] at h
    cases h
  · rw [AList.lookup_erase_ne he] at h
    exact h

theorem applyBackend_ends (stamp : Time) (b : AdvertisedBackend) (s : Records) :
    Ends (applyBackend stamp b) s (fun _ s' => s' = applied stamp s b)
      (fun _ s' => s' = s ∨ s.lookup b.name = none ∧ s' = bared s b) := by
  apply Ends.bind
  apply Ends.get (getRecord_gets b.name)
  · exact .fail (.inl rfl)
  · -- not found: the record is created bare, then given its status
    intro hs e he
    simp only [he, ↓reduceIte]
    apply Ends.bind
    apply Ends.wrap
    apply Ends.call
    · exact .inl rfl
    · exact fun _ _ => .inl rfl
    · intro _ s₁ hcreate
      simp only [createRecord, hs, Except.ok.injEq, Prod.mk.injEq, true_and] at hcreate
      subst hcreate
      apply Ends.call
      · exact .inr ⟨hs, rfl⟩
      · exact fun _ _ => .inr ⟨hs, rfl⟩
      · intro _ s₂ hupdate
        simp only [updateStatus, AList.lookup_insert, AList.insert_insert, Except.ok.injEq,
          Prod.mk.injEq, true_and] at hupdate
        simp only [applied, hs]
        exact hupdate.symm
  · intro r hs
    apply Ends.call
    · exact .inl rfl
    · exact fun _ _ => .inl rfl
    · intro _ s₂ hupdate
      simp only [updateStatus, hs, Except.ok.injEq, Prod.mk.injEq, true_and] at hupdate
      simp only [applied, hs]
      exact hupdate.symm

def unstale (names : List String) (s : Records) (b : AdvertisedBackend) : Records :=
  if b.name ∈ names then s else s.erase b.name

theorem deleteStale_completes (names : List String) (b : AdvertisedBackend) (s : Records) :
    Completes (deleteStale names b) s () (unstale names s b) := by
  rw [deleteStale, unstale]
  split
  · exact .pure _ _
  · cases h : s.lookup b.name with
    | none =>
      have hdel : deleteRecord b.name s = .error ⟨true, b.name ++ " not found"⟩ := by
        simp only [deleteRecord, h]
      rw [erase_of_lookup_none h]
      exact .bind (.attempt_error hdel) (.pure _ _)
    | some r =>
      have hdel : deleteRecord b.name s = .ok ((), s.erase b.name) := by
        simp only [deleteRecord, h]
      exact .bind (.attempt (.call hdel)) (.pure _ _)

theorem deleteStale_ends (names : List String) (b : AdvertisedBackend) (s : Records) :
    Ends (deleteStale names b) s (fun _ s' => s' = unstale names s b) (fun _ s' => s' = s) := by
  rw [deleteStale, unstale]
  split
  · exact .pure rfl
  · apply Ends.bind
    apply Ends.attempt
    apply Ends.call
    · exact .fail rfl
    · intro e hdel
      simp only
      rw [deleteRecord] at hdel
      split at hdel
      · next hs =>
        cases hdel
        exact .pure (erase_of_lookup_none hs).symm
      · cases hdel
    · intro _ s₁ hdel
      rw [deleteRecord] at hdel
      split at hdel
      · cases hdel
      · cases hdel
        exact .pure rfl

def pruned (names : List String) (s : Records) : Records :=
  s.listManaged.foldl (unstale names) s

theorem pruneStaleBackends_completes (names : List String) (s : Records) :
    Completes (pruneStaleBackends names) s () (pruned names s) :=
  .bind (.wrap (.call rfl) _)
    (.each (P := fun _ => True) (fun b _ s _ => deleteStale_completes names b s) (fun _ _ _ h => h)
      trivial)

theorem pruneStaleBackends_ends (names : List String) (s : Records) :
    Ends (pruneStaleBackends names) s (fun _ s' => s' = pruned names s) (fun _ _ => True) := by
  apply Ends.bind
  apply Ends.wrap
  apply Ends.call
  · trivial
  · exact fun _ _ => trivial
  · intro existing s₁ hlist
    cases hlist
    apply Ends.each_foldl
    exact fun b s => (deleteStale_ends names b s).mono (fun _ _ h => h) (fun _ _ _ => trivial)

variable {F : Type} [Float64 F]

def swept (stamp : Time) (candidates : List (BackendCandidate F))
    (policies : List BGPBackendPolicy) (s : Records) : Records :=
  pruned (candidates.map BackendCandidate.name)
    ((buildAdvertisedBackends candidates policies).foldl (applied stamp) s)

theorem buildAdvertisedBackends_names (candidates : List (BackendCandidate F))
    (policies : List BGPBackendPolicy) :
    (buildAdvertisedBackends candidates policies).map AdvertisedBackend.name =
      candidates.map BackendCandidate.name := by
  simp only [buildAdvertisedBackends, List.map_map]
  rfl

theorem reconcileBackends_returns (stamp : Time) (candidates : List (BackendCandidate F))
    (policies : List BGPBackendPolicy) (s : Records) :
    Returns (reconcileBackends stamp (.ok candidates) policies) s ()
      (swept stamp candidates policies s) := by
  have happly := Completes.each
    (f := fun b : AdvertisedBackend => wrap ("apply " ++ b.name) (applyBackend stamp b))
    (l := buildAdvertisedBackends candidates policies) (P := fun _ => True) (s := s)
    (fun b _ s _ => (applyBackend_completes stamp b s).wrap _) (fun _ _ _ h => h) trivial
  apply Completes.returns
  refine .bind (.wrap (.call rfl) _) (.bind happly ?_)
  rw [buildAdvertisedBackends_names]
  exact .wrap (pruneStaleBackends_completes _ _) _

theorem reconcileBackends_ends (stamp : Time) (candidates : List (BackendCandidate F))
    (policies : List BGPBackendPolicy) (s : Records) :
    Ends (reconcileBackends stamp (.ok candidates) policies) s
      (fun _ s' => s' = swept stamp candidates policies s) (fun _ _ => True) := by
  apply Ends.bind
  apply Ends.wrap
  apply Ends.call
  · trivial
  · exact fun _ _ => trivial
  · intro listed s₁ hlist
    cases hlist
    apply Ends.bind
    apply (Ends.each_foldl (g := applied stamp) (E := fun _ _ => True) ?_ _ s).mono
    · intro _ s₁ hs₁
      subst hs₁
      rw [buildAdvertisedBackends_names]
      exact .wrap (pruneStaleBackends_ends _ _)
    · exact fun _ _ h => h
    · intro b s
      apply Ends.wrap
      exact (applyBackend_ends stamp b s).mono (fun _ _ h => h) (fun _ _ _ => trivial)

theorem pruneStaleBackends_inv {J : Records → Prop} (names : List String) (hs : J s)
    (hprune : ∀ b ∈ s.listManaged, b.name ∉ names → ∀ s', J s' → J (s'.erase b.name)) :
    Ends (pruneStaleBackends names) s (fun _ => J) (fun _ => J) := by
  apply Ends.bind
  apply Ends.wrap
  apply Ends.call
  · exact hs
  · exact fun _ _ => hs
  · intro existing s₁ hlist
    cases hlist
    apply Ends.each_inv _ hs
    intro b hb s' hs'
    apply (deleteStale_ends names b s').mono
    · intro _ s₂ he
      rw [he, unstale]
      split
      · exact hs'
      · next hn => exact hprune b hb hn s' hs'
    · exact fun _ _ he => he ▸ hs'

/-- The invariant rule of a sweep that may stop at any call: `I` is kept while it writes, `J` while
it deletes. -/
theorem reconcileBackends_inv {I J : Records → Prop} (candidates : List (BackendCandidate F))
    (policies : List BGPBackendPolicy) (hs : I s) (hIJ : ∀ s, I s → J s)
    (happly : ∀ b ∈ buildAdvertisedBackends candidates policies, ∀ s, I s → I (applied stamp s b))
    (hbare : ∀ b ∈ buildAdvertisedBackends candidates policies, ∀ s, I s →
      s.lookup b.name = none → I (bared s b))
    (hprune : ∀ s, I s → ∀ b ∈ s.listManaged, b.name ∉ candidates.map BackendCandidate.name →
      ∀ s', J s' → J (s'.erase b.name)) :
    Ends (reconcileBackends stamp (.ok candidates) policies) s (fun _ => J) (fun _ => J) := by
  apply Ends.bind
  apply Ends.wrap
  apply Ends.call
  · exact hIJ s hs
  · exact fun _ _ => hIJ s hs
  · intro listed s₁ hlist
    cases hlist
    apply Ends.bind
    apply (Ends.each_inv (I := I) (E := fun _ => J) ?_ hs).mono
    · intro _ s hs
      rw [buildAdvertisedBackends_names]
      apply Ends.wrap
      exact pruneStaleBackends_inv _ (hIJ s hs) (hprune s hs)
    · exact fun _ _ h => h
    · intro b hb s hs
      apply Ends.wrap
      apply (applyBackend_ends stamp b s).mono
      · exact fun _ _ he => he ▸ happly b hb s hs
      · intro _ s' he
        cases he with
        | inl he => exact he ▸ hIJ s hs
        | inr he => exact he.2 ▸ hIJ _ (hbare b hb s hs he.1)

theorem reconcileBackends_stops {candidates : List (BackendCandidate F)}
    (h : buildAdvertisedBackends candidates policies = done ++ rest) (stamp : Time) (s : Records) :
    Stops (reconcileBackends stamp (.ok candidates) policies) s (done.foldl (applied stamp) s) := by
  have hdone := Completes.each
    (f := fun b : AdvertisedBackend => wrap ("apply " ++ b.name) (applyBackend stamp b))
    (l := done) (P := fun _ => True) (s := s)
    (fun b _ s _ => (applyBackend_completes stamp b s).wrap _) (fun _ _ _ h => h) trivial
  refine .bind (.wrap (.call rfl) _) ?_
  rw [h]
  apply Stops.each_bind _ _ hdone
  · exact fun b s => .wrap (.attempt_call _ rfl s) _
  · exact fun s => .wrap (.bind_left (.wrap (.call _ s) _) _) _

end Kreg
