import Kreg.PolicyRuns

namespace Kreg
open ApiServer
set_option autoImplicit true

section Phases

variable {out : Output} {stored : StoredPolicy} {key : NamespacedName} {s : Cluster}

theorem applyOutput_phases {J : Cluster → Prop} (hwritten : J (out.objects.foldl Cluster.put s))
    (hprune : ∀ k ∈ (out.objects.foldl Cluster.put s).listSlices (stored.named key)
      out.service.name, k.name ∉ out.endpointSlices.map Object.name →
        ∀ s', J s' → J (s'.remove k))
    (hstatus : ∀ s', J s' → J (s'.report key (stored.reported out))) :
    Ends (applyOutput key stored out) s (fun _ => J)
      (fun _ s' => (∃ done rest, out.objects = done ++ rest ∧ s' = done.foldl Cluster.put s) ∨
        J s') := by
  apply Ends.bind
  apply (Ends.each (I := fun done s' => s' = done.foldl Cluster.put s) ?_ rfl).mono
  · rintro _ s' rfl
    apply Ends.bind
    apply Ends.wrap
    apply (pruneStaleEndpointSlices_inv hwritten hprune).mono
    · intro _ s' hs'
      apply Ends.wrap
      apply Ends.call
      · exact .inr hs'
      · exact fun _ _ => .inr hs'
      · intro _ s₁ hupdate
        rw [updatePolicyStatus_ok hupdate]
        exact hstatus s' hs'
    · exact fun _ _ h => .inr h
  · exact fun _ _ h => h
  · rintro done o rest ho s' rfl
    apply Ends.wrap
    apply (applyOwned_ends _ o _).mono
    · rintro _ _ ⟨rfl, _⟩
      rw [List.foldl_append]
      rfl
    · rintro _ _ rfl
      exact .inl ⟨done, o :: rest, ho, rfl⟩

theorem lookup_foldl_put_cases (l : List Object) (s : Cluster) (k : ObjectKey) :
    (∃ o ∈ l, o.key = k ∧ (l.foldl Cluster.put s).objects.lookup k = some o.stored) ∨
      (∀ o ∈ l, o.key ≠ k) ∧
        (l.foldl Cluster.put s).objects.lookup k = s.objects.lookup k := by
  induction l generalizing s with
  | nil => exact .inr ⟨List.forall_mem_nil _, rfl⟩
  | cons a l ih =>
    rcases ih (s.put a) with ⟨o, ho, hk, hlookup⟩ | ⟨hl, hlookup⟩
    · exact .inl ⟨o, .tail _ ho, hk, hlookup⟩
    · rw [Cluster.lookup_put] at hlookup
      by_cases ha : a.key = k
      · rw [if_pos ha] at hlookup
        exact .inl ⟨a, .head _, ha, hlookup⟩
      · rw [if_neg ha] at hlookup
        exact .inr ⟨List.forall_mem_cons.2 ⟨ha, hl⟩, hlookup⟩

/-- What a reconcile has done that got to its deletions: everything is applied, and missing are at
most stale slices. -/
structure Pruning (key : NamespacedName) (stored : StoredPolicy) (out : Output)
    (s s' : Cluster) : Prop where
  applied : ∀ o ∈ out.objects, ∃ o' ∈ out.objects, o'.key = o.key ∧
    s'.objects.lookup o.key = some o'.stored
  removed : ∀ k x, s.objects.lookup k = some x → s'.objects.lookup k = none →
    labelledSlice (stored.named key) (serviceName (stored.named key)) k x = true ∧
      k ∉ out.objects.map Object.key

theorem not_rendered_of_stale (hl : out.Labelled (stored.named key)) {k : ObjectKey}
    (hk : k ∈ s.listSlices (stored.named key) out.service.name)
    (hname : k.name ∉ out.endpointSlices.map Object.name) : k ∉ out.objects.map Object.key := by
  intro hmem
  obtain ⟨o, ho, rfl⟩ := List.mem_map.1 hmem
  obtain ⟨x, _, hlabelled⟩ := mem_listSlices.1 hk
  rcases hl.other o ho with hslice | hkind
  · exact hname (List.mem_map_of_mem hslice)
  · exact hkind (labelledSlice_iff.1 hlabelled).1

theorem pruning_of_lookup (hl : out.Labelled (stored.named key))
    (h : ∀ k, s'.objects.lookup k = (out.objects.foldl Cluster.put s).objects.lookup k ∨
      k ∈ (out.objects.foldl Cluster.put s).listSlices (stored.named key) out.service.name ∧
        k.name ∉ out.endpointSlices.map Object.name) :
    Pruning key stored out s s' := by
  refine ⟨?_, ?_⟩
  · intro o ho
    rcases h o.key with hkept | ⟨hk, hname⟩
    · rw [hkept]
      rcases lookup_foldl_put_cases out.objects s o.key with hput | ⟨hnone, _⟩
      · exact hput
      · exact absurd rfl (hnone o ho)
    · exact absurd (List.mem_map_of_mem ho) (not_rendered_of_stale hl hk hname)
  · intro k x hx hgone
    have hcases := lookup_foldl_put_cases out.objects s k
    rcases h k with hkept | ⟨hk, hname⟩
    · rw [hgone] at hkept
      rcases hcases with ⟨o, _, _, hput⟩ | ⟨_, hold⟩
      · cases hkept.trans hput
      · cases (hkept.trans hold).trans hx
    · have hnew := not_rendered_of_stale hl hk hname
      obtain ⟨x', hx', hlabelled⟩ := mem_listSlices.1 hk
      rcases hcases with ⟨o, ho, rfl, _⟩ | ⟨_, hold⟩
      · exact absurd (List.mem_map_of_mem ho) hnew
      · cases (hold.symm.trans hx').symm.trans hx
        rw [hl.service] at hlabelled
        exact ⟨hlabelled, hnew⟩

/-- However far a reconcile gets, either it has not deleted anything, or all it had to apply is
in place. -/
theorem applyOutput_pruning (hl : out.Labelled (stored.named key)) (s : Cluster) :
    Ends (applyOutput key stored out) s (fun _ => Pruning key stored out s)
      (fun _ s' => (∀ k x, s.objects.lookup k = some x → s'.objects.lookup k ≠ none) ∨
        Pruning key stored out s s') := by
  apply (applyOutput_phases (J := fun s' => ∀ k,
    s'.objects.lookup k = (out.objects.foldl Cluster.put s).objects.lookup k ∨
      k ∈ (out.objects.foldl Cluster.put s).listSlices (stored.named key) out.service.name ∧
        k.name ∉ out.endpointSlices.map Object.name) ?_ ?_ ?_).mono
  · exact fun _ _ h => pruning_of_lookup hl h
  · rintro _ s' (⟨done, rest, _, rfl⟩ | h)
    · left
      intro k x hx hgone
      rcases lookup_foldl_put_cases done s k with ⟨o, _, _, hput⟩ | ⟨_, hold⟩
      · cases hgone.symm.trans hput
      · cases (hgone.symm.trans hold).trans hx
    · exact .inr (pruning_of_lookup hl h)
  · exact fun k => .inl rfl
  · intro k hk hname s' hs' k'
    rw [Cluster.lookup_remove]
    split
    · next he => exact .inr (he ▸ ⟨hk, hname⟩)
    · exact hs' k'
  · intro s' hs' k
    rw [Cluster.report_objects]
    exact hs' k

end Phases

variable {F : Type}

def Spared (key : NamespacedName) (snapshot : Except String (List (BackendCandidate F)))
    (k : ObjectKey) (s s' : Cluster) : Prop :=
  s'.objects.lookup k ≠ none ∨ ∃ candidates stored out, snapshot = .ok candidates ∧
    s.policies.lookup key = some stored ∧
    render (stored.named key) candidates istioDriver = .ok out ∧ Pruning key stored out s s'

theorem reconcilePolicy_spared (key : NamespacedName)
    (snapshot : Except String (List (BackendCandidate F))) {s : Cluster}
    (hx : s.objects.lookup k = some x) :
    Ends (reconcilePolicy istioDriver snapshot key) s (fun _ => Spared key snapshot k s)
      (fun _ => Spared key snapshot k s) := by
  have hthere : s.objects.lookup k ≠ none := hx ▸ Option.some_ne_none x
  apply reconcilePolicy_ends
  · exact fun _ => .inl hthere
  · exact fun _ => .inl hthere
  · intro stored candidates out hp hsnap hrender
    apply (applyOutput_pruning (render_labelled hrender) s).mono
    · exact fun _ _ h => .inr ⟨candidates, stored, out, hsnap, hp, hrender, h⟩
    · rintro _ s' (hkept | h)
      · exact .inl (hkept k x hx)
      · exact .inr ⟨candidates, stored, out, hsnap, hp, hrender, h⟩

/-- An object that goes was a slice of a policy under reconcile which its candidates do not give
any more. When it goes, all the objects they do give are in place. -/
theorem PolicyRun.removed_last (r : PolicyRun F) (hx : (r.cluster n).objects.lookup k = some x)
    (hgone : (r.cluster (n + 1)).objects.lookup k = none) :
    ∃ key candidates faults stored out, r.event n = .reconcile key (.ok candidates) faults ∧
      (r.cluster n).policies.lookup key = some stored ∧
      render (stored.named key) candidates istioDriver = .ok out ∧
      labelledSlice (stored.named key) (serviceName (stored.named key)) k x = true ∧
      k ∉ out.objects.map Object.key ∧
      ∀ o ∈ out.objects, ∃ o' ∈ out.objects, o'.key = o.key ∧
        (r.cluster (n + 1)).objects.lookup o.key = some o'.stored := by
  rw [PolicyRun.cluster_succ] at hgone ⊢
  cases he : r.event n with
  | put key policy =>
    rw [he] at hgone
    cases hgone.symm.trans hx
  | delete key =>
    rw [he] at hgone
    cases hgone.symm.trans hx
  | reconcile key snapshot faults =>
    rw [he] at hgone
    rcases (reconcilePolicy_spared key snapshot hx).store faults with
      hthere | ⟨candidates, stored, out, rfl, hp, hrender, h⟩
    · exact absurd hgone hthere
    · obtain ⟨hlabelled, hnew⟩ := h.removed k x hx hgone
      exact ⟨key, candidates, faults, stored, out, rfl, hp, hrender, hlabelled, hnew, h.applied⟩

/-- Between two reconciles of a policy another one comes, and its first reconcile is cut short. -/
def pruningRun : PolicyRun Rat where
  start := webCluster [staleSlice]
  event n :=
    match n with
    | 1 => .put ⟨"gateways", "api"⟩ { webPolicy with name := "api" }
    | 2 => .reconcile ⟨"gateways", "api"⟩ (.ok [spokeCandidate]) [false, false, true]
    | _ => .reconcile webKey (.ok [spokeCandidate]) []
  start_named key h := by
    obtain ⟨p, hp⟩ := Option.isSome_iff_exists.1 h
    cases List.mem_singleton.1 (AList.mem_lookup_iff.1 hp)
    decide
  put_named n key policy h := by
    split at h
    · cases h
      decide
    · cases h
    · cases h

theorem removed_last_stale : ∃ key candidates faults stored out,
    pruningRun.event 0 = .reconcile key (.ok candidates) faults ∧
      (pruningRun.cluster 0).policies.lookup key = some stored ∧
      render (stored.named key) candidates istioDriver = .ok out ∧
      labelledSlice (stored.named key) (serviceName (stored.named key)) staleSlice.key
        staleSlice.stored = true ∧
      staleSlice.key ∉ out.objects.map Object.key ∧
      ∀ o ∈ out.objects, ∃ o' ∈ out.objects, o'.key = o.key ∧
        (pruningRun.cluster 1).objects.lookup o.key = some o'.stored := by
  have hx : (pruningRun.cluster 0).objects.lookup staleSlice.key = some staleSlice.stored := by
    decide +kernel
  have hgone : (pruningRun.cluster 1).objects.lookup staleSlice.key = none := by
    decide +kernel
  exact pruningRun.removed_last hx hgone

section InPlace

variable {out : Output} {stored : StoredPolicy} {key : NamespacedName} {s s' : Cluster}

/-- The policy has the objects its candidates give and no other slices, and its status says so. -/
structure InPlace (key : NamespacedName) (stored : StoredPolicy) (out : Output) (s : Cluster) :
    Prop where
  slices : ∀ k x, s.objects.lookup k = some x ∧
    labelledSlice (stored.named key) (serviceName (stored.named key)) k x = true ↔
      ∃ o ∈ out.endpointSlices, o.key = k ∧ o.stored = x
  rendered : ∀ o ∈ out.objects, s.objects.lookup o.key = some o.stored
  reported : s.policies.lookup key = some { stored with status := stored.reported out }

theorem InPlace.converged (h : InPlace key stored out s) :
    Converged key (stored.named key) out s s where
  slices := h.slices
  rendered := h.rendered
  others _ _ _ := rfl
  policies _ _ := rfl
  spec := rfl

theorem InPlace.of_lookup (h : InPlace key stored out s)
    (ho : ∀ k, s'.objects.lookup k = s.objects.lookup k)
    (hp : s'.policies.lookup key = s.policies.lookup key) : InPlace key stored out s' where
  slices k x := by
    rw [ho]
    exact h.slices k x
  rendered o hmem := by
    rw [ho]
    exact h.rendered o hmem
  reported := hp.trans h.reported

theorem inPlace_converged (hl : out.Labelled (stored.named key))
    (hn : (out.objects.map Object.key).Nodup) (hp : s.policies.lookup key = some stored) :
    InPlace key stored out (s.converged key stored out) where
  slices := converged_slices hl hn s
  rendered _ ho := converged_rendered hl hn s ho
  reported := by
    rw [lookup_converged_policies, if_pos rfl, hp]
    rfl

theorem InPlace.touched (h : InPlace key stored out s) (hl : out.Labelled (stored.named key))
    (hname : key.name ≠ "") (ht : Touches key' s s') (hne : key ≠ key')
    (hp : s'.policies.lookup key = s.policies.lookup key) : InPlace key stored out s' := by
  have hkept {o : Object} (ho : o ∈ out.objects) : s'.objects.lookup o.key = some o.stored :=
    ht.kept o.key o.stored key (h.rendered o ho) ⟨hl.located o ho, hl.owned o ho⟩ hname (.inl hne)
  refine ⟨?_, fun o ho => hkept ho, hp.trans h.reported⟩
  intro k x
  constructor
  · rintro ⟨hx, hlabelled⟩
    apply (h.slices k x).1
    rcases ht.written k x hx with hold | ⟨howned, _⟩
    · exact ⟨hold, hlabelled⟩
    · obtain ⟨_, hns, hlabel, _⟩ := labelledSlice_iff.1 hlabelled
      exact absurd (OwnedBy.unique ⟨hns, hlabel⟩ howned) hne
  · rintro ⟨o, ho, rfl, rfl⟩
    exact ⟨hkept (mem_objects_of_mem_endpointSlices ho), hl.service ▸ hl.slice o ho⟩

theorem reconcilePolicy_policies (snapshot : Except String (List (BackendCandidate F)))
    (hne : key ≠ key') (s : Cluster) :
    Ends (reconcilePolicy istioDriver snapshot key') s
      (fun _ s' => s'.policies.lookup key = s.policies.lookup key)
      (fun _ s' => s'.policies.lookup key = s.policies.lookup key) := by
  apply reconcilePolicy_ends
  · exact fun _ => rfl
  · exact fun _ => rfl
  · intro stored candidates out _ _ _
    apply applyOutput_inv (I := fun _ s' => s'.policies.lookup key = s.policies.lookup key) rfl
    · exact fun _ _ h => h
    · exact fun _ _ _ _ _ h _ => h
    · exact fun _ _ _ _ _ _ h => h
    · intro s' h
      rw [Cluster.lookup_report, if_neg hne]
      exact h

/-- The event does not change the policy, nor reconcile it with other candidates. -/
def PolicyEvent.Steady (key : NamespacedName) (candidates : List (BackendCandidate F))
    (e : PolicyEvent F) : Prop :=
  ¬ e.Changes key ∧ ∀ other faults, e = .reconcile key (.ok other) faults → other = candidates

theorem InPlace.step {e : PolicyEvent F} (h : InPlace key stored out s)
    (hrender : render (stored.named key) candidates istioDriver = .ok out)
    (hname : key.name ≠ "") (he : e.Steady key candidates) : InPlace key stored out (e.step s) := by
  obtain ⟨hchanges, hcandidates⟩ := he
  cases e with
  | put key' policy =>
    have hne : key ≠ key' := Ne.symm hchanges
    exact h.of_lookup (fun _ => rfl) (AList.lookup_insert_ne hne)
  | delete key' =>
    have hne : key ≠ key' := Ne.symm hchanges
    exact h.of_lookup (fun _ => rfl) (AList.lookup_erase_ne hne)
  | reconcile key' snapshot faults =>
    by_cases hne : key = key'
    · subst hne
      have hsame : Ends (reconcilePolicy istioDriver snapshot key) s (fun _ => s.Same)
          (fun _ => s.Same) := by
        cases snapshot with
        | ok other =>
          rw [hcandidates other faults rfl]
          exact reconcilePolicy_same hrender h.converged h.reported
        | error e =>
          apply reconcilePolicy_ends
          · exact fun _ => ⟨fun _ => rfl, fun _ => rfl⟩
          · exact fun _ => ⟨fun _ => rfl, fun _ => rfl⟩
          · intro stored' candidates' out' _ hsnap
            cases hsnap
      have hstore := hsame.store faults
      exact h.of_lookup hstore.objects (hstore.policies key)
    · exact h.touched (render_labelled hrender) hname (PolicyEvent.touches s key' snapshot faults)
        hne ((reconcilePolicy_policies snapshot hne s).store faults)

theorem InPlace.slices_iff {candidates : List (BackendCandidate F)}
    (h : InPlace key stored out s)
    (hrender : render (stored.named key) candidates istioDriver = .ok out) (k : ObjectKey)
    (x : StoredObject) :
    s.objects.lookup k = some x ∧
        labelledSlice (stored.named key) (serviceName (stored.named key)) k x = true ↔
      ∃ c ∈ candidates, selects (stored.named key).selector c = true ∧
        ∃ o, renderEndpointSlice (stored.named key) (serviceName (stored.named key)) c = .ok o ∧
          o.key = k ∧ o.stored = x := by
  rw [h.slices]
  constructor
  · rintro ⟨o, ho, hk, hx⟩
    obtain ⟨c, hc, hco⟩ := exists_of_forall₂ (render_slices hrender) ho
    obtain ⟨hmem, hselects⟩ := List.mem_filter.1 hc
    exact ⟨c, hmem, hselects, o, hco, hk, hx⟩
  · rintro ⟨c, hmem, hselects, o, hco, hk, hx⟩
    obtain ⟨o', ho', hco'⟩ :=
      exists_right_of_forall₂ (render_slices hrender) (List.mem_filter.2 ⟨hmem, hselects⟩)
    cases hco.symm.trans hco'
    exact ⟨o, ho', hk, hx⟩

end InPlace

/-- Once a policy is reconciled it stays so, whatever the reconciles of other policies do, in
whatever order and wherever they fail, and whatever happens to those policies: as long as its own
candidates do not change, its slices are those of the candidates it selects. -/
theorem PolicyRun.stands_jointly (r : PolicyRun F) {candidates : List (BackendCandidate F)}
    (he : r.event m = .reconcile key (.ok candidates) faults)
    (hp : (r.cluster m).policies.lookup key = some stored)
    (hok : reconcilePolicy istioDriver (.ok candidates) key ⟨r.cluster m, faults⟩ = (.ok (), w)) :
    ∃ out, render (stored.named key) candidates istioDriver = .ok out ∧
      ((out.objects.map fun o => (o.kind, o.name)).Nodup →
        ∀ n, m < n → (∀ i, m < i → i < n → (r.event i).Steady key candidates) →
          (∀ o ∈ out.objects, (r.cluster n).objects.lookup o.key = some o.stored) ∧
          ∀ k x, (r.cluster n).objects.lookup k = some x ∧
            labelledSlice (stored.named key) (serviceName (stored.named key)) k x = true ↔
              ∃ c ∈ candidates, selects (stored.named key).selector c = true ∧
                ∃ o, renderEndpointSlice (stored.named key) (serviceName (stored.named key)) c =
                  .ok o ∧ o.key = k ∧ o.stored = x) := by
  obtain ⟨out, hrender, hw⟩ := reconcilePolicy_returned hp hok
  refine ⟨out, hrender, ?_⟩
  intro hn n hmn hsteady
  have hname : key.name ≠ "" := r.name_ne_empty (Option.isSome_of_eq_some hp)
  have hplace : InPlace key stored out (r.cluster n) := by
    induction n, hmn using Nat.le_induction with
    | base =>
      rw [PolicyRun.cluster_succ, he, PolicyEvent.step, hok]
      simp only [hw]
      exact inPlace_converged (render_labelled hrender) (Output.keys_nodup hn) hp
    | succ n hmn ih =>
      have hbefore := ih fun i hi hin => hsteady i hi (hin.trans n.lt_succ_self)
      exact hbefore.step hrender hname (hsteady n hmn n.lt_succ_self)
  exact ⟨hplace.rendered, hplace.slices_iff hrender⟩

theorem stands_jointly_web : ∃ out,
    render webPolicy [spokeCandidate] istioDriver = .ok out ∧
      ∀ o ∈ out.objects, (pruningRun.cluster 4).objects.lookup o.key = some o.stored := by
  have hp : (pruningRun.cluster 0).policies.lookup webKey = some ⟨webPolicy, ⟨0, 0, []⟩⟩ := rfl
  have hfree : ∀ o ∈ webOutput.objects, (pruningRun.cluster 0).objects.lookup o.key = none := by
    decide +kernel
  have hok := (reconcilePolicy_completes hp render_web (takesAll_web hfree)).returns
  obtain ⟨out, hout, h⟩ := pruningRun.stands_jointly rfl hp hok
  cases render_web.symm.trans hout
  have hsteady : ∀ i, 0 < i → i < 4 → (pruningRun.event i).Steady webKey [spokeCandidate] := by
    intro i hi hlt
    have hne : (⟨"gateways", "api"⟩ : NamespacedName) ≠ webKey := by decide
    have hcases : i = 1 ∨ i = 2 ∨ i = 3 := by omega
    rcases hcases with rfl | rfl | rfl
    · exact ⟨hne, fun _ _ he => by cases he⟩
    · exact ⟨id, fun _ _ he => absurd (PolicyEvent.reconcile.inj he).1 hne⟩
    · exact ⟨id, fun _ _ he => by cases he; rfl⟩
  exact ⟨webOutput, render_web, (h (by decide) 4 (by decide) hsteady).1⟩

end Kreg
