import Kreg.GoNet
import Kreg.Types

namespace Kreg
set_option autoImplicit true

/-- Both computations fail, or both return and `R` relates what they return. -/
inductive Alike (R : α → β → Prop) : Except String α → Except String β → Prop where
  | failed (e e' : String) : Alike R (.error e) (.error e')
  | returned (h : R a b) : Alike R (.ok a) (.ok b)

theorem Alike.of_ok {x : Except String α} {y : Except String β}
    (hx : ∀ a, x = .ok a → ∃ b, y = .ok b ∧ R a b) (hy : ∀ b, y = .ok b → ∃ a, x = .ok a) :
    Alike R x y := by
  cases x with
  | ok a =>
    obtain ⟨b, rfl, hr⟩ := hx a rfl
    exact .returned hr
  | error e =>
    cases y with
    | error e' => exact .failed e e'
    | ok b =>
      obtain ⟨a, ha⟩ := hy b rfl
      cases ha

def withinAny (ip : IP) : List String → Except String Bool
  | [] => .ok false
  | cidr :: rest =>
    match parseCIDR cidr with
    | .error e => .error ("parse selector prefix " ++ quote cidr ++ ": " ++ e)
    | .ok c => if c.net.contains ip then .ok true else withinAny ip rest

def prefixWithinAny (pfx : String) (cidrs : List String) : Except String Bool :=
  match parseCIDR pfx with
  | .error e => .error ("parse candidate prefix " ++ quote pfx ++ ": " ++ e)
  | .ok c => withinAny c.ip cidrs

/-- Neither rejected nor held back by the damper: `HoldDown` is deliberately still served. -/
def BackendCandidate.servable (c : BackendCandidate F) : Bool :=
  !c.rejected &&
    match c.damping with
    | none => true
    | some d => d.state != .dampened && d.state != .pending

theorem servable_iff {c : BackendCandidate F} (hr : c.rejected = false) (hd : c.damping = some d) :
    c.servable = true ↔ d.state ≠ .dampened ∧ d.state ≠ .pending := by
  simp only [BackendCandidate.servable, hr, hd, Bool.not_false, Bool.true_and, Bool.and_eq_true,
    bne_iff_ne]

def selectsCluster (sel : BackendSelector) (c : BackendCandidate F) : Bool :=
  sel.clusterIDs.isEmpty || sel.clusterIDs.contains c.clusterID

def selectsTag (sel : BackendSelector) (c : BackendCandidate F) : Bool :=
  match sel.serviceTag with
  | none => true
  | some tag => c.serviceTag == some tag

def selectOne (sel : BackendSelector) (c : BackendCandidate F) : Except String Bool :=
  if c.servable && selectsCluster sel c && selectsTag sel c then
    if sel.prefixes.isEmpty then .ok true else prefixWithinAny c.pfx sel.prefixes
  else .ok false

theorem selectOne_congr {c c' : BackendCandidate F} (hs : c.servable = c'.servable)
    (hpfx : c.pfx = c'.pfx) (hid : c.clusterID = c'.clusterID)
    (htag : c.serviceTag = c'.serviceTag) (sel : BackendSelector) :
    selectOne sel c = selectOne sel c' := by
  have hcluster : selectsCluster sel c = selectsCluster sel c' := by
    rw [selectsCluster, selectsCluster, hid]
  have hsel : selectsTag sel c = selectsTag sel c' := by
    rw [selectsTag, selectsTag, htag]
  rw [selectOne, selectOne, hs, hcluster, hsel, hpfx]

def select (candidates : List (BackendCandidate F)) (sel : BackendSelector) :
    Except String (List (BackendCandidate F)) :=
  match candidates with
  | [] => .ok []
  | c :: rest =>
    match selectOne sel c with
    | .error e => .error e
    | .ok keep =>
      match select rest sel with
      | .error e => .error e
      | .ok selected => .ok (if keep then c :: selected else selected)

def selects (sel : BackendSelector) (c : BackendCandidate F) : Bool :=
  match selectOne sel c with
  | .ok keep => keep
  | .error _ => false

/-- `Select` is a filter that fails as a whole if it fails on one candidate. -/
theorem select_eq_ok_iff {candidates selected : List (BackendCandidate F)} :
    select candidates sel = .ok selected ↔
      (∀ c ∈ candidates, (selectOne sel c).isOk = true) ∧
        selected = candidates.filter (selects sel) := by
  induction candidates generalizing selected with
  | nil =>
    simp only [select, Except.ok.injEq, List.not_mem_nil, false_implies, implies_true, true_and,
      List.filter_nil]
    exact eq_comm
  | cons a rest ih =>
    rw [List.forall_mem_cons, List.filter_cons]
    cases ha : selectOne sel a with
    | error e =>
      simp only [select, ha, reduceCtorEq, Except.isOk, Except.toBool, Bool.false_eq_true,
        false_and]
    | ok keep =>
      have hs : selects sel a = keep := by rw [selects, ha]
      simp only [select, ha, hs, Except.isOk, Except.toBool, true_and] at ih ⊢
      cases hr : select rest sel with
      | error e =>
        simp only [reduceCtorEq, false_iff, not_and]
        intro hall
        rw [ih.2 ⟨hall, rfl⟩] at hr
        cases hr
      | ok chosen =>
        obtain ⟨hall, rfl⟩ := ih.1 hr
        simp only [Except.ok.injEq]
        exact ⟨fun h => ⟨hall, h.symm⟩, fun h => h.2.symm⟩

theorem servable_of_selects {c : BackendCandidate F} (h : selects sel c = true) :
    c.servable = true := by
  by_contra hs
  rw [Bool.not_eq_true] at hs
  simp only [selects, selectOne, hs, Bool.false_and, Bool.false_eq_true, ↓reduceIte] at h

theorem select_servable (h : select candidates sel = .ok selected) :
    ∀ c ∈ selected, c ∈ candidates ∧ c.servable = true := by
  obtain ⟨_, rfl⟩ := select_eq_ok_iff.1 h
  intro c hc
  obtain ⟨hm, hs⟩ := List.mem_filter.1 hc
  exact ⟨hm, servable_of_selects hs⟩

def BackendSelector.all : BackendSelector := ⟨[], none, []⟩

theorem select_all (candidates : List (BackendCandidate F)) :
    select candidates .all = .ok (candidates.filter BackendCandidate.servable) := by
  induction candidates with
  | nil => rfl
  | cons a rest ih =>
    have hone : selectOne .all a = .ok a.servable := by
      simp only [selectOne, BackendSelector.all, selectsCluster, selectsTag, List.isEmpty_nil,
        Bool.true_or, Bool.and_true, ↓reduceIte]
      cases a.servable <;> rfl
    simp only [select, hone, ih, List.filter_cons]

end Kreg
