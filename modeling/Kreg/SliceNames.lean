import Kreg.NameKey
import Kreg.PolicyStore
import Kreg.ReportRender
import Mathlib.Data.List.Infix

namespace Kreg
set_option autoImplicit true

theorem append_cons_inj_of_count_right [DecidableEq α] {a : α} {x y u v : List α}
    (hc : u.count a = v.count a) (h : x ++ a :: u = y ++ a :: v) : x = y ∧ u = v := by
  have htotal := congrArg (List.count a) h
  rw [List.count_append, List.count_append, List.count_cons_self, List.count_cons_self, hc,
    Nat.add_right_cancel_iff] at htotal
  exact append_cons_inj_of_count htotal h

/-- What stands between the name of a policy and the cluster in the name of a slice. -/
def serviceMark : List Char := ['-', 'k', 'r', 'e', 'g', '-']

theorem serviceMark_overlap (h : serviceMark = t ++ u) (h' : serviceMark ++ d = u ++ c) :
    t = [] ∧ c = d ∨ t = "-kreg".toList ∧ c = "kreg-".toList ++ d ∨
      t = serviceMark ∧ c = serviceMark ++ d := by
  have hmem : t ∈ serviceMark.inits := (List.mem_inits t serviceMark).2 ⟨u, h.symm⟩
  have hu : u = serviceMark.drop t.length := by
    rw [h, List.drop_left]
  subst hu
  simp only [serviceMark, List.inits, List.map_cons, List.map_nil, List.mem_cons,
    List.not_mem_nil, or_false] at hmem
  -- of the seven ways to cut the mark in two, three go on as the mark does
  rcases hmem with rfl | rfl | rfl | rfl | rfl | rfl | rfl
  all_goals simp_all [serviceMark]

/-- One policy's slice names run on through the other policy's name. -/
def Shadows (name clusterID name' clusterID' : String) : Prop :=
  name' = name ++ "-kreg" ∧ clusterID = "kreg-" ++ clusterID' ∨
    ∃ y, name' = name ++ "-kreg-" ++ y ∧ clusterID = y ++ "-kreg-" ++ clusterID'

theorem shadows_of_toList (ht : name'.toList = name.toList ++ (serviceMark ++ y))
    (hc : clusterID.toList = y ++ (serviceMark ++ clusterID'.toList)) :
    Shadows name clusterID name' clusterID' := by
  refine .inr ⟨String.ofList y, String.toList_inj.1 ?_, String.toList_inj.1 ?_⟩
  · simp only [ht, String.toList_append, String.toList_ofList, List.append_assoc]
    rfl
  · simp only [hc, String.toList_append, String.toList_ofList, List.append_assoc]
    rfl

/-- With the shorter name first, two marked names are the same text only if they are the same or
one shadows the other. -/
theorem marked_eq (hle : name.toList.length ≤ name'.toList.length)
    (h : name.toList ++ (serviceMark ++ clusterID.toList) =
      name'.toList ++ (serviceMark ++ clusterID'.toList)) :
    name = name' ∧ clusterID = clusterID' ∨ Shadows name clusterID name' clusterID' := by
  obtain ⟨t, ht⟩ := List.prefix_of_prefix_length_le ⟨_, h⟩ (List.prefix_append _ _) hle
  rw [← ht, List.append_assoc, List.append_cancel_left_eq] at h
  rcases List.append_eq_append_iff.1 h with ⟨y, rfl, hc⟩ | ⟨u, hu, hd⟩
  · exact .inr (shadows_of_toList ht.symm hc)
  · rcases serviceMark_overlap hu hd with ⟨rfl, hc⟩ | ⟨rfl, hc⟩ | ⟨rfl, hc⟩
    · rw [List.append_nil] at ht
      exact .inl ⟨String.toList_inj.1 ht, String.toList_inj.1 hc⟩
    · refine .inr (.inl ⟨String.toList_inj.1 ?_, String.toList_inj.1 ?_⟩)
      · rw [← ht, String.toList_append]
      · rw [hc, String.toList_append]
    · refine .inr (shadows_of_toList (y := []) ?_ hc)
      rw [← ht, List.append_nil]

theorem Shadows.marked_eq (h : Shadows name clusterID name' clusterID') :
    name.toList ++ (serviceMark ++ clusterID.toList) =
      name'.toList ++ (serviceMark ++ clusterID'.toList) := by
  rcases h with ⟨rfl, rfl⟩ | ⟨y, rfl, rfl⟩
  · simp only [String.toList_append, List.append_assoc]
    rfl
  · simp only [String.toList_append, List.append_assoc]
    rfl

theorem Shadows.length_lt (h : Shadows name clusterID name' clusterID') :
    name.toList.length < name'.toList.length := by
  rcases h with ⟨rfl, _⟩ | ⟨y, rfl, _⟩
  · simp
  · simp

theorem endpointSliceName_toList (policy : BGPBackendPolicy) (clusterID pfx : String) :
    (endpointSliceName (serviceName policy) clusterID pfx).toList =
      policy.name.toList ++ (serviceMark ++ clusterID.toList) ++
        '-' :: pfx.toList.map sanitizeChar := by
  simp only [endpointSliceName, serviceName, String.toList_append, sanitizeForName_toList,
    List.append_assoc]
  rfl

theorem endpointSliceName_eq_iff {policy policy' : BGPBackendPolicy} (hp : IPv4Prefix pfx)
    (hp' : IPv4Prefix pfx') (clusterID clusterID' : String) :
    endpointSliceName (serviceName policy) clusterID pfx =
        endpointSliceName (serviceName policy') clusterID' pfx' ↔
      policy.name.toList ++ (serviceMark ++ clusterID.toList) =
          policy'.name.toList ++ (serviceMark ++ clusterID'.toList) ∧ pfx = pfx' := by
  have hpunct : punctuation pfx.toList = punctuation pfx'.toList := hp.trans hp'.symm
  rw [← String.toList_inj, endpointSliceName_toList, endpointSliceName_toList]
  constructor
  · intro h
    have hcount : (pfx.toList.map sanitizeChar).count '-' =
        (pfx'.toList.map sanitizeChar).count '-' := by
      rw [count_dash_sanitized, hpunct, ← count_dash_sanitized]
    obtain ⟨hname, hpfx⟩ := append_cons_inj_of_count_right hcount h
    exact ⟨hname, String.toList_inj.1 (map_sanitizeChar_inj hpunct hpfx)⟩
  · rintro ⟨hname, rfl⟩
    rw [hname]

/-- The names of two slices tell their policies, clusters and prefixes apart, unless the prefix is
the same and one policy's names run on through the other's. -/
theorem endpointSliceName_inj_iff (policy policy' : BGPBackendPolicy)
    (clusterID clusterID' : String) (hp : IPv4Prefix pfx) (hp' : IPv4Prefix pfx') :
    (endpointSliceName (serviceName policy) clusterID pfx =
          endpointSliceName (serviceName policy') clusterID' pfx' →
        policy.name = policy'.name ∧ clusterID = clusterID' ∧ pfx = pfx') ↔
      ¬ (pfx = pfx' ∧ (Shadows policy.name clusterID policy'.name clusterID' ∨
        Shadows policy'.name clusterID' policy.name clusterID)) := by
  rw [endpointSliceName_eq_iff hp hp']
  constructor
  · rintro h ⟨hpfx, hs | hs⟩
    · have hlt := hs.length_lt
      rw [(h ⟨hs.marked_eq, hpfx⟩).1] at hlt
      exact lt_irrefl _ hlt
    · have hlt := hs.length_lt
      rw [(h ⟨hs.marked_eq.symm, hpfx⟩).1] at hlt
      exact lt_irrefl _ hlt
  · rintro hn ⟨hname, hpfx⟩
    rcases Nat.le_total policy.name.toList.length policy'.name.toList.length with hle | hle
    · rcases marked_eq hle hname with ⟨h, h'⟩ | hs
      · exact ⟨h, h', hpfx⟩
      · exact absurd ⟨hpfx, .inl hs⟩ hn
    · rcases marked_eq hle hname.symm with ⟨h, h'⟩ | hs
      · exact ⟨h.symm, h'.symm, hpfx⟩
      · exact absurd ⟨hpfx, .inr hs⟩ hn

theorem endpointSliceName_inj_web :
    endpointSliceName (serviceName webPolicy) "spoke" "10.1.0.0/24" ≠
      endpointSliceName (serviceName { webPolicy with name := "api" }) "edge" "10.1.0.0/24" := by
  have hpfx : IPv4Prefix "10.1.0.0/24" := by decide
  intro h
  have hname := ((endpointSliceName_inj_iff webPolicy { webPolicy with name := "api" } "spoke"
    "edge" hpfx hpfx).2 ?_ h).1
  · exact absurd hname (by decide)
  · rintro ⟨_, hs | hs⟩
    · exact absurd hs.length_lt (by decide)
    · exact absurd hs.length_lt (by decide)

/-- Two policies of one namespace need the same slice name, and the second one is refused it. -/
theorem endpointSliceName_clash :
    ∃ o o', renderEndpointSlice webPolicy (serviceName webPolicy)
          { spokeCandidate with clusterID := "kreg-spoke" } = .ok o ∧
        renderEndpointSlice { webPolicy with name := "web-kreg" } "web-kreg-kreg" spokeCandidate =
          .ok o' ∧
        ∀ s : Cluster, ¬ (s.put o).Admits "web-kreg" o' := by
  refine ⟨_, _, rfl, rfl, fun s h => ?_⟩
  apply h
  · rw [Cluster.lookup_put, if_pos]
    decide +kernel
  · exact ⟨by decide +kernel, by decide +kernel⟩

end Kreg
