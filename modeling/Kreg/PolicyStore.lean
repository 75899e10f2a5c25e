import Kreg.PolicyReconciler

namespace Kreg
open ApiServer
set_option autoImplicit true

/-- Another owner's name is on the object. -/
def StoredObject.Refuses (x : StoredObject) (policyName : String) : Prop :=
  x.owner ≠ "" ∧ x.owner ≠ policyName

theorem labelledSlice_iff :
    labelledSlice policy svc key x = true ↔
      key.kind = .endpointSlice ∧ key.namespaceName = policy.namespaceName ∧
        x.labels.lookup managedByLabel = some policy.name ∧
          x.labels.lookup serviceNameLabel = some svc := by
  simp only [labelledSlice, Bool.and_eq_true, beq_iff_eq, and_assoc]

def Cluster.Admits (s : Cluster) (policyName : String) (o : Object) : Prop :=
  ∀ x, s.objects.lookup o.key = some x → ¬ x.Refuses policyName

/-- The object can be created, or written over the one under its key. -/
structure Cluster.Takes (s : Cluster) (policyName : String) (o : Object) : Prop where
  admits : s.Admits policyName o
  mutable : ∀ x, s.objects.lookup o.key = some x → x.content.mayBecome o.content = true

theorem Cluster.takes_of_none {s : Cluster} (h : s.objects.lookup o.key = none) :
    s.Takes policyName o where
  admits x hx := by
    rw [h] at hx
    cases hx
  mutable x hx := by
    rw [h] at hx
    cases hx

def Cluster.TakesAll (policyName : String) : Cluster → List Object → Prop
  | _, [] => True
  | s, o :: l => s.Takes policyName o ∧ (s.put o).TakesAll policyName l

theorem Cluster.lookup_put (s : Cluster) (o : Object) (k : ObjectKey) :
    (s.put o).objects.lookup k = if o.key = k then some o.stored else s.objects.lookup k := by
  rw [Cluster.put]
  split
  · next he =>
    subst he
    exact AList.lookup_insert _
  · next hne => exact AList.lookup_insert_ne (Ne.symm hne)

theorem getObject_gets (key : ObjectKey) : Gets (getObject key) (·.objects.lookup key) where
  found s x h := by simp only [getObject, h]
  missing s h := ⟨⟨true, key.name ++ " not found"⟩, rfl, by simp only [getObject, h]⟩

theorem getPolicy_gets (key : NamespacedName) : Gets (getPolicy key) (·.policies.lookup key) where
  found s p h := by simp only [getPolicy, h]
  missing s h := ⟨⟨true, key.name ++ " not found"⟩, rfl, by simp only [getPolicy, h]⟩

theorem updateObject_ok_iff (h : s.objects.lookup o.key = some x) :
    updateObject o s = .ok (u, s') ↔ x.content.mayBecome o.content = true ∧ s' = s.put o := by
  simp only [updateObject, h]
  split
  · next hm => simp only [Except.ok.injEq, Prod.mk.injEq, true_and, hm, eq_comm]
  · next hm => simp only [reduceCtorEq, hm, false_and]

theorem applyOwned_completes (h : s.Takes policyName o) :
    Completes (applyOwned policyName o) s () (s.put o) := by
  cases hs : s.objects.lookup o.key with
  | none =>
    obtain ⟨e, he, hget⟩ := Completes.get_missing (getObject_gets o.key) hs
    have hcreate : createObject o s = .ok ((), s.put o) := by
      simp only [createObject, hs]
    apply Completes.bind hget
    simp only [he, ↓reduceIte]
    exact .call hcreate
  | some x =>
    have hupdate := (updateObject_ok_iff (u := ()) hs).2 ⟨h.mutable x hs, rfl⟩
    apply Completes.bind (.get (getObject_gets o.key) hs)
    simp only
    split
    · next hrefuses => exact absurd hrefuses (h.admits x hs)
    · exact .call hupdate

theorem applyOwned_ends (policyName : String) (o : Object) (s : Cluster) :
    Ends (applyOwned policyName o) s (fun _ s' => s' = s.put o ∧ s.Takes policyName o)
      (fun _ s' => s' = s) := by
  apply Ends.bind
  apply Ends.get (getObject_gets o.key)
  · exact .fail rfl
  · intro hs e he
    simp only [he, ↓reduceIte]
    apply Ends.call
    · rfl
    · exact fun _ _ => rfl
    · intro _ s' hcreate
      simp only [createObject, hs, Except.ok.injEq, Prod.mk.injEq, true_and] at hcreate
      exact ⟨hcreate.symm, Cluster.takes_of_none hs⟩
  · intro x hs
    simp only
    split
    · exact .fail rfl
    · next hadm =>
      apply Ends.call
      · rfl
      · exact fun _ _ => rfl
      · intro _ s' hupdate
        obtain ⟨hm, rfl⟩ := (updateObject_ok_iff hs).1 hupdate
        refine ⟨rfl, fun y hy => ?_, fun y hy => ?_⟩
        · rw [hs] at hy
          cases hy
          exact hadm
        · rw [hs] at hy
          cases hy
          exact hm

theorem applyOwned_stops (policyName : String) (o : Object) (s : Cluster) :
    Stops (applyOwned policyName o) s s :=
  .attempt_call _ rfl s

def Cluster.remove (s : Cluster) (key : ObjectKey) : Cluster :=
  { s with objects := s.objects.erase key }

theorem Cluster.lookup_remove (s : Cluster) (key k : ObjectKey) :
    (s.remove key).objects.lookup k = if key = k then none else s.objects.lookup k := by
  rw [Cluster.remove]
  split
  · next he =>
    subst he
    exact AList.lookup_erase _ _
  · next hne => exact AList.lookup_erase_ne (Ne.symm hne)

def unsliced (names : List String) (s : Cluster) (slice : ObjectKey) : Cluster :=
  if slice.name ∈ names then s else s.remove slice

theorem deleteStaleSlice_completes (names : List String) (slice : ObjectKey) (s : Cluster) :
    Completes (deleteStaleSlice names slice) s () (unsliced names s slice) := by
  rw [deleteStaleSlice, unsliced]
  split
  · exact .pure _ _
  · rw [Cluster.remove]
    cases h : s.objects.lookup slice with
    | none =>
      have hdel : deleteObject slice s = .error ⟨true, slice.name ++ " not found"⟩ := by
        simp only [deleteObject, h]
      rw [erase_of_lookup_none h]
      exact .bind (.attempt_error hdel) (.pure _ _)
    | some x =>
      have hdel : deleteObject slice s = .ok ((), s.remove slice) := by
        simp only [deleteObject, h, Cluster.remove]
      exact .bind (.attempt (.call hdel)) (.pure _ _)

theorem deleteStaleSlice_ends (names : List String) (slice : ObjectKey) (s : Cluster) :
    Ends (deleteStaleSlice names slice) s (fun _ s' => s' = unsliced names s slice)
      (fun _ s' => s' = s) := by
  rw [deleteStaleSlice, unsliced]
  split
  · exact .pure rfl
  · apply Ends.bind
    apply Ends.attempt
    apply Ends.call
    · exact .fail rfl
    · intro e hdel
      simp only
      rw [deleteObject] at hdel
      split at hdel
      · next hs =>
        cases hdel
        apply Ends.pure
        rw [Cluster.remove, erase_of_lookup_none hs]
      · cases hdel
    · intro _ s₁ hdel
      rw [deleteObject] at hdel
      split at hdel
      · cases hdel
      · cases hdel
        exact .pure rfl

def Cluster.report (s : Cluster) (key : NamespacedName) (status : BGPBackendPolicyStatus) :
    Cluster :=
  match s.policies.lookup key with
  | none => s
  | some p => { s with policies := s.policies.insert key { p with status := status } }

def StoredPolicy.reported (stored : StoredPolicy) (output : Output) : BGPBackendPolicyStatus :=
  { stored.status with
    generated := output.objects.map Object.resource
    activeBackends := Int32.ofNat output.endpointSlices.length }

theorem updatePolicyStatus_ok (h : updatePolicyStatus key status s = .ok (u, s')) :
    s' = s.report key status := by
  rw [updatePolicyStatus] at h
  split at h
  · cases h
  · next hp =>
    cases h
    simp only [Cluster.report, hp]

theorem pruneStaleEndpointSlices_inv {J : Cluster → Prop} {serviceName : String} (hs : J s)
    (hprune : ∀ k ∈ s.listSlices policy serviceName, k.name ∉ desired.map Object.name →
      ∀ s', J s' → J (s'.remove k)) :
    Ends (pruneStaleEndpointSlices policy serviceName desired) s (fun _ => J) (fun _ => J) := by
  apply Ends.bind
  apply Ends.wrap
  apply Ends.call
  · exact hs
  · exact fun _ _ => hs
  · intro existing s₁ hlist
    cases hlist
    apply Ends.each_inv _ hs
    intro k hk s' hs'
    apply (deleteStaleSlice_ends _ k s').mono
    · intro _ s₁ he
      rw [he, unsliced]
      split
      · exact hs'
      · next hn => exact hprune k hk hn s' hs'
    · exact fun _ _ he => he ▸ hs'

/-- The invariant rule of a reconcile that may stop at any call: `I` is about the objects applied
so far, `J` is kept throughout. -/
theorem applyOutput_inv {I : List Object → Cluster → Prop} {J : Cluster → Prop} (hs : I [] s)
    (hIJ : ∀ done s, I done s → J s)
    (happly : ∀ done o rest, output.objects = done ++ o :: rest → ∀ s, I done s →
      s.Takes key.name o → I (done ++ [o]) (s.put o))
    (hprune : ∀ s, J s → ∀ k ∈ s.listSlices (stored.named key) output.service.name,
      k.name ∉ output.endpointSlices.map Object.name → ∀ s', J s' → J (s'.remove k))
    (hstatus : ∀ s, J s → J (s.report key (stored.reported output))) :
    Ends (applyOutput key stored output) s (fun _ => J) (fun _ => J) := by
  apply Ends.bind
  apply (Ends.each (I := I) (E := fun _ => J) ?_ hs).mono
  · intro _ s hs
    replace hs := hIJ _ s hs
    apply Ends.bind
    apply Ends.wrap
    apply (pruneStaleEndpointSlices_inv hs (hprune s hs)).mono
    · intro _ s' hs'
      apply Ends.wrap
      apply Ends.call
      · exact hs'
      · exact fun _ _ => hs'
      · intro _ s₁ hupdate
        rw [updatePolicyStatus_ok hupdate]
        exact hstatus s' hs'
    · exact fun _ _ h => h
  · exact fun _ _ h => h
  · intro done o rest ho s hs
    apply Ends.wrap
    apply (applyOwned_ends _ o s).mono
    · exact fun _ _ he => he.1 ▸ happly done o rest ho s hs he.2
    · exact fun _ _ he => he ▸ hIJ done s hs

def Cluster.pruned (s : Cluster) (policy : BGPBackendPolicy) (output : Output) : Cluster :=
  (s.listSlices policy output.service.name).foldl
    (unsliced (output.endpointSlices.map Object.name)) s

/-- The cluster a reconcile that returns leaves behind. -/
def Cluster.converged (s : Cluster) (key : NamespacedName) (stored : StoredPolicy)
    (output : Output) : Cluster :=
  ((output.objects.foldl Cluster.put s).pruned (stored.named key) output).report key
    (stored.reported output)

theorem applyOutput_ends (key : NamespacedName) (stored : StoredPolicy) (output : Output)
    (s : Cluster) :
    Ends (applyOutput key stored output) s (fun _ s' => s' = s.converged key stored output)
      (fun _ _ => True) := by
  apply Ends.bind
  apply (Ends.each_foldl (g := Cluster.put) (E := fun _ _ => True) ?_ _ s).mono
  · intro _ s₁ hs₁
    subst hs₁
    apply Ends.bind
    apply Ends.wrap
    apply Ends.bind
    apply Ends.wrap
    apply Ends.call
    · trivial
    · exact fun _ _ => trivial
    · intro existing s₁ hlist
      cases hlist
      apply (Ends.each_foldl (E := fun _ _ => True) ?_ _ _).mono
      · intro _ s₂ hs₂
        apply Ends.wrap
        apply Ends.call
        · trivial
        · exact fun _ _ => trivial
        · intro _ s₃ hupdate
          rw [updatePolicyStatus_ok hupdate, hs₂]
          rfl
      · exact fun _ _ h => h
      · exact fun k s => (deleteStaleSlice_ends _ k s).mono (fun _ _ h => h) (fun _ _ _ => trivial)
  · exact fun _ _ h => h
  · intro o s
    apply Ends.wrap
    exact (applyOwned_ends _ o s).mono (fun _ _ h => h.1) (fun _ _ _ => trivial)

theorem foldl_put_policies (l : List Object) (s : Cluster) :
    (l.foldl Cluster.put s).policies = s.policies := by
  induction l generalizing s with
  | nil => rfl
  | cons o l ih =>
    rw [List.foldl_cons, ih]
    rfl

theorem unsliced_policies (names : List String) (s : Cluster) (slice : ObjectKey) :
    (unsliced names s slice).policies = s.policies := by
  rw [unsliced]
  split
  · rfl
  · rfl

theorem Cluster.pruned_policies (s : Cluster) (policy : BGPBackendPolicy) (out : Output) :
    (s.pruned policy out).policies = s.policies := by
  rw [Cluster.pruned]
  generalize s.listSlices policy out.service.name = l
  induction l generalizing s with
  | nil => rfl
  | cons k l ih => rw [List.foldl_cons, ih, unsliced_policies]

theorem reconcilePolicy_ends {driver : Driver F} {Q : Unit → Cluster → Prop}
    {E : ApiError → Cluster → Prop} (hE : ∀ e, E e s)
    (hmissing : s.policies.lookup key = none → Q () s)
    (happly : ∀ stored candidates output, s.policies.lookup key = some stored →
      snapshot = .ok candidates → render (stored.named key) candidates driver = .ok output →
        Ends (applyOutput key stored output) s Q E) :
    Ends (reconcilePolicy driver snapshot key) s Q E := by
  apply Ends.bind
  apply Ends.get (getPolicy_gets key)
  · exact .fail (hE _)
  · intro hs e he
    simp only [he, ↓reduceIte]
    exact .pure (hmissing hs)
  · intro stored hs
    simp only
    split
    · exact .fail (hE _)
    · split
      · exact .fail (hE _)
      · next hrender => exact happly _ _ _ hs rfl hrender

theorem reconcilePolicy_returned {driver : Driver F} {candidates : List (BackendCandidate F)}
    (hp : s.policies.lookup key = some stored)
    (hok : reconcilePolicy driver (.ok candidates) key ⟨s, faults⟩ = (.ok (), w)) :
    ∃ out, render (stored.named key) candidates driver = .ok out ∧
      w.store = s.converged key stored out := by
  have hends : Ends (reconcilePolicy driver (.ok candidates) key) s
      (fun _ s' => ∃ out, render (stored.named key) candidates driver = .ok out ∧
        s' = s.converged key stored out) (fun _ _ => True) := by
    apply reconcilePolicy_ends
    · exact fun _ => trivial
    · intro hnone
      rw [hp] at hnone
      cases hnone
    · intro stored' candidates' out hp' hsnap hrender
      rw [hp] at hp'
      cases hp'
      cases hsnap
      apply (applyOutput_ends key stored out s).mono
      · exact fun _ _ he => ⟨out, hrender, he⟩
      · exact fun _ _ h => h
  exact hends.of_ok hok

/-- What is known of the objects rendered for a policy without looking at their content. -/
structure Output.Labelled (out : Output) (policy : BGPBackendPolicy) : Prop where
  service : out.service.name = serviceName policy
  owned : ∀ o ∈ out.objects, o.labels.lookup managedByLabel = some policy.name
  located : ∀ o ∈ out.objects, o.namespaceName = policy.namespaceName
  slice : ∀ o ∈ out.endpointSlices, labelledSlice policy out.service.name o.key o.stored = true
  other : ∀ o ∈ out.objects, o ∈ out.endpointSlices ∨ o.kind ≠ .endpointSlice

theorem renderEndpointSlice_labelled {c : BackendCandidate F}
    (h : renderEndpointSlice policy svc c = .ok o) :
    labelledSlice policy svc o.key o.stored = true := by
  rw [renderEndpointSlice] at h
  split at h
  · cases h
  · cases h
    exact labelledSlice_iff.2 ⟨rfl, rfl, rfl, rfl⟩

theorem istioDriver_labelled {selected : List (BackendCandidate F)}
    (h : istioDriver policy selected host = .ok objects) (ho : o ∈ objects) :
    o.labels.lookup managedByLabel = some policy.name ∧
      o.namespaceName = policy.namespaceName ∧ o.kind = .destinationRule := by
  rw [istioDriver] at h
  split at h
  · cases h
  · cases h
    cases List.mem_singleton.1 ho
    exact ⟨rfl, rfl, rfl⟩

theorem render_labelled {candidates : List (BackendCandidate F)}
    (h : render policy candidates istioDriver = .ok out) : out.Labelled policy := by
  obtain ⟨selected, _, hslices, hdriver, hsvc⟩ := render_ok_iff.1 h
  have hname : out.service.name = serviceName policy := by
    rw [hsvc]
    rfl
  have hslice : ∀ o ∈ out.endpointSlices,
      labelledSlice policy (serviceName policy) o.key o.stored = true := by
    intro o ho
    obtain ⟨c, _, hr⟩ := exists_right_of_forall₂ (renderEndpointSlices_ok_iff.1 hslices).flip ho
    exact renderEndpointSlice_labelled hr
  have hcases : ∀ o ∈ out.objects,
      o = renderService policy ∨ o ∈ out.endpointSlices ∨ o ∈ out.driverObjects := by
    intro o ho
    rw [Output.objects, List.mem_cons, List.mem_append, hsvc] at ho
    exact ho
  refine ⟨hname, fun o ho => ?_, fun o ho => ?_, fun o ho => ?_, fun o ho => ?_⟩
  · rcases hcases o ho with rfl | hs | hd
    · rfl
    · exact (labelledSlice_iff.1 (hslice o hs)).2.2.1
    · exact (istioDriver_labelled hdriver hd).1
  · rcases hcases o ho with rfl | hs | hd
    · rfl
    · exact (labelledSlice_iff.1 (hslice o hs)).2.1
    · exact (istioDriver_labelled hdriver hd).2.1
  · rw [hname]
    exact hslice o ho
  · rcases hcases o ho with rfl | hs | hd
    · exact .inr (nofun)
    · exact .inl hs
    · refine .inr fun he => ?_
      rw [(istioDriver_labelled hdriver hd).2.2] at he
      cases he

theorem Cluster.TakesAll.append {s : Cluster} {l : List Object} (h : s.TakesAll policyName l)
    (ho : (l.foldl Cluster.put s).Takes policyName o) : s.TakesAll policyName (l ++ [o]) := by
  induction l generalizing s with
  | nil => exact ⟨ho, trivial⟩
  | cons o' l ih => exact ⟨h.1, ih h.2 ho⟩

theorem Cluster.takesAll_of_nodup {s : Cluster} {l : List Object} (hn : (l.map Object.key).Nodup)
    (h : ∀ o ∈ l, s.Takes policyName o) : s.TakesAll policyName l := by
  induction l generalizing s with
  | nil => trivial
  | cons o l ih =>
    rw [List.map_cons, List.nodup_cons] at hn
    refine ⟨h o (.head _), ih hn.2 fun o' ho' => ?_⟩
    have hsame : (s.put o).objects.lookup o'.key = s.objects.lookup o'.key := by
      rw [Cluster.lookup_put, if_neg]
      intro he
      exact hn.1 (he ▸ List.mem_map_of_mem ho')
    have hbefore := h o' (.tail _ ho')
    exact ⟨fun x hx => hbefore.admits x (hsame ▸ hx), fun x hx => hbefore.mutable x (hsame ▸ hx)⟩

section Passing

variable {out : Output} {stored : StoredPolicy} {key : NamespacedName} {s : Cluster}

theorem applyObjects_completes {objects : List Object} (h : s.TakesAll policyName objects) :
    Completes (each (fun o => wrap ("apply " ++ o.kind.text) (applyOwned policyName o)) objects)
      s () (objects.foldl Cluster.put s) := by
  induction objects generalizing s with
  | nil => exact .pure _ _
  | cons o l ih => exact .bind ((applyOwned_completes h.1).wrap _) (ih h.2)

theorem applyOutput_completes (hp : s.policies.lookup key = some p)
    (htakes : s.TakesAll key.name out.objects) :
    Completes (applyOutput key stored out) s () (s.converged key stored out) := by
  have hstored : ((out.objects.foldl Cluster.put s).pruned (stored.named key)
      out).policies.lookup key = some p := by
    rw [Cluster.pruned_policies, foldl_put_policies]
    exact hp
  have hstatus : updatePolicyStatus key (stored.reported out)
      ((out.objects.foldl Cluster.put s).pruned (stored.named key) out) =
        .ok ((), s.converged key stored out) := by
    simp only [updatePolicyStatus, Cluster.converged, Cluster.report, hstored]
  apply Completes.bind (applyObjects_completes htakes)
  apply Completes.bind
  · apply Completes.wrap
    apply Completes.bind
    · exact .wrap (.call rfl) _
    · exact .each (P := fun _ => True) (fun k _ s _ => deleteStaleSlice_completes _ k s)
        (fun _ _ _ h => h) trivial
  · exact .wrap (.call hstatus) _

theorem applyOutput_stops (ho : out.objects = done ++ rest) (htakes : s.TakesAll key.name done) :
    Stops (applyOutput key stored out) s (done.foldl Cluster.put s) := by
  rw [applyOutput, ho]
  apply Stops.each_bind _ _ (applyObjects_completes htakes)
  · exact fun o s => .wrap (applyOwned_stops _ o s) _
  · exact fun s => .bind_left (.wrap (.bind_left (.wrap (.call _ s) _) _) _) _

variable {candidates : List (BackendCandidate F)}

theorem reconcilePolicy_completes (hp : s.policies.lookup key = some stored)
    (hrender : render (stored.named key) candidates istioDriver = .ok out)
    (htakes : s.TakesAll key.name out.objects) :
    Completes (reconcilePolicy istioDriver (.ok candidates) key) s ()
      (s.converged key stored out) := by
  apply Completes.bind (.get (getPolicy_gets key) hp)
  simp only [hrender]
  exact applyOutput_completes hp htakes

theorem reconcilePolicy_stops (hp : s.policies.lookup key = some stored)
    (hrender : render (stored.named key) candidates istioDriver = .ok out)
    (ho : out.objects = done ++ rest) (htakes : s.TakesAll key.name done) :
    Stops (reconcilePolicy istioDriver (.ok candidates) key) s (done.foldl Cluster.put s) := by
  apply Stops.bind (.get (getPolicy_gets key) hp)
  simp only [hrender]
  exact applyOutput_stops ho htakes

end Passing

end Kreg
