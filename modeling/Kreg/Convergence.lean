import Kreg.PolicyStore
import Kreg.ReportRender

namespace Kreg
open ApiServer
set_option autoImplicit true

theorem lookup_foldl_put_of_notMem {l : List Object} (h : k ∉ l.map Object.key) (s : Cluster) :
    (l.foldl Cluster.put s).objects.lookup k = s.objects.lookup k := by
  induction l generalizing s with
  | nil => rfl
  | cons o l ih =>
    rw [List.map_cons, List.mem_cons, not_or] at h
    rw [List.foldl_cons, ih h.2, Cluster.lookup_put, if_neg (Ne.symm h.1)]

theorem lookup_foldl_put_of_mem {l : List Object} (hn : (l.map Object.key).Nodup) (ho : o ∈ l)
    (s : Cluster) : (l.foldl Cluster.put s).objects.lookup o.key = some o.stored := by
  induction l generalizing s with
  | nil => cases ho
  | cons a l ih =>
    rw [List.map_cons, List.nodup_cons] at hn
    rw [List.foldl_cons]
    cases ho with
    | head => rw [lookup_foldl_put_of_notMem hn.1, Cluster.lookup_put, if_pos rfl]
    | tail _ ho => exact ih hn.2 ho _

theorem lookup_foldl_unsliced (names : List String) (k : ObjectKey) (l : List ObjectKey)
    (s : Cluster) :
    (l.foldl (unsliced names) s).objects.lookup k =
      if k ∈ l ∧ k.name ∉ names then none else s.objects.lookup k := by
  induction l generalizing s with
  | nil => simp only [List.foldl_nil, List.not_mem_nil, false_and, ↓reduceIte]
  | cons a l ih =>
    rw [List.foldl_cons, ih, unsliced]
    by_cases hk : k.name ∈ names
    · simp only [hk, not_true_eq_false, and_false, ↓reduceIte]
      split
      · rfl
      · next ha =>
        have hne : a ≠ k := fun he => ha (he ▸ hk)
        rw [Cluster.lookup_remove, if_neg hne]
    · by_cases he : a = k
      · subst he
        simp only [hk, not_false_eq_true, and_true, ↓reduceIte, Cluster.lookup_remove,
          List.mem_cons, true_or, ite_self]
      · have hmem : k ∈ a :: l ↔ k ∈ l := by
          rw [List.mem_cons, or_iff_right (Ne.symm he)]
        simp only [hmem]
        congr 1
        split
        · rfl
        · rw [Cluster.lookup_remove, if_neg he]

theorem mem_listSlices {s : Cluster} :
    k ∈ s.listSlices policy svc ↔
      ∃ x, s.objects.lookup k = some x ∧ labelledSlice policy svc k x = true := by
  simp only [Cluster.listSlices, List.mem_map, List.mem_filter]
  constructor
  · rintro ⟨e, ⟨he, hl⟩, rfl⟩
    exact ⟨e.2, AList.mem_lookup_iff.2 he, hl⟩
  · rintro ⟨x, hx, hl⟩
    exact ⟨⟨k, x⟩, ⟨AList.mem_lookup_iff.1 hx, hl⟩, rfl⟩

theorem Cluster.lookup_pruned (s : Cluster) (policy : BGPBackendPolicy) (out : Output)
    (k : ObjectKey) :
    (s.pruned policy out).objects.lookup k = (s.objects.lookup k).filter fun x =>
      !labelledSlice policy out.service.name k x ||
        k.name ∈ out.endpointSlices.map Object.name := by
  rw [Cluster.pruned, lookup_foldl_unsliced]
  simp only [mem_listSlices]
  cases s.objects.lookup k with
  | none => simp only [reduceCtorEq, false_and, exists_false, ↓reduceIte, Option.filter_none]
  | some x =>
    simp only [Option.some.injEq, exists_eq_left', Option.filter_some, Bool.or_eq_true,
      Bool.not_eq_true', decide_eq_true_eq]
    by_cases hl : labelledSlice policy out.service.name k x = true
    · by_cases hk : k.name ∈ out.endpointSlices.map Object.name
      · simp only [hk, not_true_eq_false, and_false, ↓reduceIte, or_true]
      · simp only [hl, hk, not_false_eq_true, and_self, ↓reduceIte, Bool.true_eq_false, or_self]
    · simp only [hl, Bool.false_eq_true, false_and, ↓reduceIte, true_or]

theorem Cluster.report_objects (s : Cluster) (key : NamespacedName)
    (status : BGPBackendPolicyStatus) : (s.report key status).objects = s.objects := by
  rw [Cluster.report]
  split
  · rfl
  · rfl

theorem Cluster.lookup_report (s : Cluster) (key : NamespacedName)
    (status : BGPBackendPolicyStatus) (k : NamespacedName) :
    (s.report key status).policies.lookup k =
      if k = key then (s.policies.lookup k).map fun p => { p with status := status }
      else s.policies.lookup k := by
  rw [Cluster.report]
  by_cases he : k = key
  · subst he
    cases hp : s.policies.lookup k with
    | none => simp only [hp, Option.map_none, ite_self]
    | some p => simp only [AList.lookup_insert, Option.map_some, ↓reduceIte]
  · rw [if_neg he]
    split
    · rfl
    · exact AList.lookup_insert_ne he

/-- What a reconcile that returns has achieved for its policy, and left alone. -/
structure Converged (key : NamespacedName) (policy : BGPBackendPolicy) (out : Output)
    (s s' : Cluster) : Prop where
  slices : ∀ k x, s'.objects.lookup k = some x ∧
    labelledSlice policy (serviceName policy) k x = true ↔
      ∃ o ∈ out.endpointSlices, o.key = k ∧ o.stored = x
  rendered : ∀ o ∈ out.objects, s'.objects.lookup o.key = some o.stored
  others : ∀ k, k ∉ out.objects.map Object.key →
    (∀ x, s.objects.lookup k = some x → labelledSlice policy (serviceName policy) k x = false) →
      s'.objects.lookup k = s.objects.lookup k
  policies : ∀ k, k ≠ key → s'.policies.lookup k = s.policies.lookup k
  spec : (s'.policies.lookup key).map StoredPolicy.policy =
    (s.policies.lookup key).map StoredPolicy.policy

structure Cluster.Same (s s' : Cluster) : Prop where
  objects : ∀ k, s'.objects.lookup k = s.objects.lookup k
  policies : ∀ k, s'.policies.lookup k = s.policies.lookup k

section Rendered

variable {out : Output} {stored : StoredPolicy} {key : NamespacedName}

theorem Output.keys_nodup (hn : (out.objects.map fun o => (o.kind, o.name)).Nodup) :
    (out.objects.map Object.key).Nodup := by
  apply List.Nodup.of_map (fun k : ObjectKey => (k.kind, k.name))
  rw [List.map_map]
  exact hn

theorem Output.Labelled.key_eq (hl : out.Labelled policy)
    (hk : labelledSlice policy svc k x = true) (ho : o ∈ out.endpointSlices)
    (hname : o.name = k.name) : o.key = k := by
  obtain ⟨hkind, hns, _⟩ := labelledSlice_iff.1 (hl.slice o ho)
  obtain ⟨hkind', hns', _⟩ := labelledSlice_iff.1 hk
  cases k
  simp only [Object.key, ObjectKey.mk.injEq] at *
  exact ⟨hkind.trans hkind'.symm, hns.trans hns'.symm, hname⟩

theorem mem_objects_of_mem_endpointSlices (ho : o ∈ out.endpointSlices) : o ∈ out.objects :=
  .tail _ (List.mem_append_left _ ho)

theorem lookup_converged (s : Cluster) (k : ObjectKey) :
    (s.converged key stored out).objects.lookup k =
      ((out.objects.foldl Cluster.put s).objects.lookup k).filter fun x =>
        !labelledSlice (stored.named key) out.service.name k x ||
          k.name ∈ out.endpointSlices.map Object.name := by
  rw [Cluster.converged, Cluster.report_objects, Cluster.lookup_pruned]

theorem converged_rendered (hl : out.Labelled (stored.named key))
    (hn : (out.objects.map Object.key).Nodup) (s : Cluster) (ho : o ∈ out.objects) :
    (s.converged key stored out).objects.lookup o.key = some o.stored := by
  rw [lookup_converged, lookup_foldl_put_of_mem hn ho, Option.filter_some, if_pos]
  rw [Bool.or_eq_true, Bool.not_eq_true', decide_eq_true_eq]
  cases hl.other o ho with
  | inl hs => exact .inr (List.mem_map_of_mem hs)
  | inr hk =>
    refine .inl (Bool.eq_false_iff.2 fun h => ?_)
    exact hk (labelledSlice_iff.1 h).1

theorem converged_slices (hl : out.Labelled (stored.named key))
    (hn : (out.objects.map Object.key).Nodup) (s : Cluster) (k : ObjectKey) (x : StoredObject) :
    (s.converged key stored out).objects.lookup k = some x ∧
        labelledSlice (stored.named key) (serviceName (stored.named key)) k x = true ↔
      ∃ o ∈ out.endpointSlices, o.key = k ∧ o.stored = x := by
  constructor
  · rintro ⟨hk, hlab⟩
    have hmem : k.name ∈ out.endpointSlices.map Object.name := by
      rw [lookup_converged, Option.filter_eq_some_iff, hl.service, hlab] at hk
      simpa only [Bool.not_true, Bool.false_or, decide_eq_true_eq] using hk.2
    obtain ⟨o, ho, hname⟩ := List.mem_map.1 hmem
    have hkey : o.key = k := hl.key_eq hlab ho hname
    subst hkey
    rw [converged_rendered hl hn s (mem_objects_of_mem_endpointSlices ho)] at hk
    exact ⟨o, ho, rfl, Option.some.inj hk⟩
  · rintro ⟨o, ho, rfl, rfl⟩
    refine ⟨converged_rendered hl hn s (mem_objects_of_mem_endpointSlices ho), ?_⟩
    rw [← hl.service]
    exact hl.slice o ho

theorem converged_others (hl : out.Labelled (stored.named key)) {s : Cluster}
    (hk : k ∉ out.objects.map Object.key)
    (hs : ∀ x, s.objects.lookup k = some x →
      labelledSlice (stored.named key) (serviceName (stored.named key)) k x = false) :
    (s.converged key stored out).objects.lookup k = s.objects.lookup k := by
  rw [lookup_converged, lookup_foldl_put_of_notMem hk, hl.service]
  cases hx : s.objects.lookup k with
  | none => rfl
  | some x => rw [Option.filter_some, hs x hx, Bool.not_false, Bool.true_or, if_pos rfl]

theorem lookup_converged_policies (s : Cluster) (k : NamespacedName) :
    (s.converged key stored out).policies.lookup k =
      if k = key then (s.policies.lookup k).map fun p => { p with status := stored.reported out }
      else s.policies.lookup k := by
  rw [Cluster.converged, Cluster.lookup_report, Cluster.pruned_policies, foldl_put_policies]

theorem converged_spec (hl : out.Labelled (stored.named key))
    (hn : (out.objects.map Object.key).Nodup) (s : Cluster) :
    Converged key (stored.named key) out s (s.converged key stored out) where
  slices := converged_slices hl hn s
  rendered _ := converged_rendered hl hn s
  others _ := converged_others hl
  policies k hk := by rw [lookup_converged_policies, if_neg hk]
  spec := by
    rw [lookup_converged_policies, if_pos rfl, Option.map_map]
    rfl

/-- Once its objects are stored, its slices are the only ones and its status is up to date, a
policy's reconcile writes nothing new, whichever of its calls go through. -/
theorem applyOutput_same (hl : out.Labelled (stored.named key))
    (hc : Converged key (stored.named key) out s₀ s)
    (hp : s.policies.lookup key = some { stored with status := stored.reported out }) :
    Ends (applyOutput key { stored with status := stored.reported out } out) s
      (fun _ => s.Same) (fun _ => s.Same) := by
  apply applyOutput_inv (I := fun _ => s.Same)
  · exact ⟨fun _ => rfl, fun _ => rfl⟩
  · exact fun _ _ h => h
  · intro done o rest ho s' hs' _
    refine ⟨fun k => ?_, hs'.policies⟩
    rw [Cluster.lookup_put]
    split
    · next he =>
      subst he
      exact (hc.rendered o (ho ▸ List.mem_append_right _ (.head _))).symm
    · exact hs'.objects k
  · intro s' hs' k hk hname
    obtain ⟨x, hx, hlab⟩ := mem_listSlices.1 hk
    rw [hs'.objects] at hx
    rw [hl.service] at hlab
    obtain ⟨o, ho, rfl, _⟩ := (hc.slices k x).1 ⟨hx, hlab⟩
    exact absurd (List.mem_map_of_mem ho) hname
  · intro s' hs'
    refine ⟨fun k => ?_, fun k => ?_⟩
    · rw [Cluster.report_objects]
      exact hs'.objects k
    · rw [Cluster.lookup_report]
      split
      · next he =>
        subst he
        rw [hs'.policies, hp]
        rfl
      · exact hs'.policies k

end Rendered

variable {F : Type}

theorem reconcilePolicy_same {candidates : List (BackendCandidate F)} {stored : StoredPolicy}
    (hrender : render (stored.named key) candidates istioDriver = .ok out)
    (hc : Converged key (stored.named key) out s₀ s)
    (hp : s.policies.lookup key = some { stored with status := stored.reported out }) :
    Ends (reconcilePolicy istioDriver (.ok candidates) key) s (fun _ => s.Same)
      (fun _ => s.Same) := by
  have hsame : s.Same s := ⟨fun _ => rfl, fun _ => rfl⟩
  apply reconcilePolicy_ends
  · exact fun _ => hsame
  · exact fun _ => hsame
  · intro stored' candidates' out' hp' hsnap hrender'
    rw [hp] at hp'
    cases hp'
    cases hsnap
    have hout : render (stored.named key) candidates istioDriver = .ok out' := hrender'
    rw [hrender] at hout
    cases hout
    exact applyOutput_same (render_labelled hrender) hc hp

/-- A reconcile that returns has made the policy's slices exactly the rendered ones, stored all
that is rendered and touched nothing else; reconciling again changes nothing. -/
theorem reconcilePolicy_converges {candidates : List (BackendCandidate F)}
    (hp : s.policies.lookup key = some stored)
    (hok : reconcilePolicy istioDriver (.ok candidates) key ⟨s, faults⟩ = (.ok (), w)) :
    ∃ out, render (stored.named key) candidates istioDriver = .ok out ∧
      ((out.objects.map fun o => (o.kind, o.name)).Nodup →
        Converged key (stored.named key) out s w.store ∧
          ∀ faults', w.store.Same
            (reconcilePolicy istioDriver (.ok candidates) key ⟨w.store, faults'⟩).2.store) := by
  obtain ⟨out, hrender, hw⟩ := reconcilePolicy_returned hp hok
  refine ⟨out, hrender, fun hn => ?_⟩
  have hl := render_labelled hrender
  have hc := converged_spec hl (Output.keys_nodup hn) s
  rw [hw]
  refine ⟨hc, fun faults' => ?_⟩
  apply (reconcilePolicy_same hrender hc ?_).store
  rw [lookup_converged_policies, if_pos rfl, hp]
  rfl

def webKey : NamespacedName := ⟨"gateways", "web"⟩

/-- A slice of the policy for a cluster that is not selected any more. -/
def staleSlice : Object where
  namespaceName := "gateways"
  name := "web-kreg-edge-10-0-1-0-24"
  labels := [(managedByLabel, "web"), (serviceNameLabel, "web-kreg")]
  content := .endpointSlice ⟨.ipv4, [webPort], [⟨["10.0.1.0"], true, true, none, none⟩]⟩

def webCluster (objects : List Object) : Cluster where
  objects := objects.foldl (fun m o => m.insert o.key o.stored) ∅
  policies := (∅ : AList fun _ : NamespacedName => StoredPolicy).insert webKey
    ⟨webPolicy, ⟨0, 0, []⟩⟩

theorem takesAll_web {s : Cluster}
    (h : ∀ o ∈ webOutput.objects, s.objects.lookup o.key = none) :
    s.TakesAll "web" webOutput.objects :=
  Cluster.takesAll_of_nodup (by decide) fun o ho => Cluster.takes_of_none (h o ho)

theorem reconcilePolicy_converges_web :
    Converged webKey webPolicy webOutput (webCluster [staleSlice])
      ((webCluster [staleSlice]).converged webKey ⟨webPolicy, ⟨0, 0, []⟩⟩ webOutput) := by
  have hp : (webCluster [staleSlice]).policies.lookup webKey = some ⟨webPolicy, ⟨0, 0, []⟩⟩ := rfl
  have hfree : ∀ o ∈ webOutput.objects, (webCluster [staleSlice]).objects.lookup o.key = none := by
    decide +kernel
  have hok := (reconcilePolicy_completes hp render_web (takesAll_web hfree)).returns
  obtain ⟨out, hout, hconv⟩ := reconcilePolicy_converges hp hok
  cases render_web.symm.trans hout
  exact (hconv (by decide)).1

end Kreg
