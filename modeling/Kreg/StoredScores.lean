import Kreg.DurableMemory
import Kreg.RoundedDecay

namespace Kreg
open Float64 HalfLife ApiServer
set_option autoImplicit true

def InInt32 (n : Int) : Prop :=
  -2147483648 ≤ n ∧ n ≤ 2147483647

instance (n : Int) : Decidable (InInt32 n) :=
  inferInstanceAs (Decidable (_ ∧ _))

theorem inInt32_toInt (n : Int32) : InInt32 n.toInt :=
  ⟨n.le_toInt, n.toInt_le⟩

theorem InInt32.toInt_ofInt (h : InInt32 n) : (Int32.ofInt n).toInt = n :=
  Int32.toInt_ofInt_of_le h.1 (Int.lt_add_one_of_le h.2)

/-- Rounded to the nearest integer, halfway cases away from zero, and clamped to `int32`. -/
noncomputable def nearestInt32 (x : ℝ) : ℤ :=
  max (-2147483648) (min 2147483647 (nearest x))

theorem le_nearestInt32 {x y : ℝ} (h : x ≤ nearest y) (hmax : x ≤ 2147483647) :
    x ≤ nearestInt32 y := by
  have hmin : x ≤ ((min 2147483647 (nearest y) : ℤ) : ℝ) := by
    push_cast
    exact le_min hmax h
  exact hmin.trans (Int.cast_le.2 (le_max_right _ _))

/-- What is documented of `float64`, as far as scores go: integers, comparisons and rounding are
right, and neither a penalty nor a decay leaves the finite numbers. -/
class RealFloat (F : Type) [Float64 F] where
  val : F → ℝ
  finite : F → Prop
  not_nan : ∀ x, finite x → isNaN x = false
  ofInt_finite : ∀ n, InInt32 n → finite (ofInt n)
  ofInt_val : ∀ n, InInt32 n → val (ofInt n) = n
  lt_iff : ∀ x y, finite x → finite y → (lt x y = true ↔ val x < val y)
  round_finite : ∀ x, finite x → finite (round x)
  round_val : ∀ x, finite x → val (round x) = nearest (val x)
  toInt_eq : ∀ x n, finite x → InInt32 n → val x = n → toInt x = n
  penalty_finite : ∀ x, finite x → finite (add x (ofInt flapPenalty))
  decay_finite : ∀ (n : Int) (elapsed halfLife : Duration), InInt32 n → 0 < elapsed.ns →
    0 < halfLife.ns → finite (mul (ofInt n) (halves elapsed halfLife))

/-- How far arithmetic on scores may fall short of the real numbers: a penalty takes nothing away,
and one decay loses at most `loss`. -/
class BoundedLoss (F : Type) [Float64 F] extends RealFloat F where
  loss : ℝ
  loss_nonneg : 0 ≤ loss
  penalty_val : ∀ x, finite x → val x ≤ val (add x (ofInt flapPenalty))
  decay_val : ∀ (n : Int) (elapsed halfLife : Duration), InInt32 n → 0 < elapsed.ns →
    0 < halfLife.ns → 0 ≤ n →
      n * factor halfLife.ns elapsed.ns - loss ≤ val (mul (ofInt n) (halves elapsed halfLife))

section Storing

variable {F : Type} [Float64 F] [RealFloat F]
open RealFloat

theorem clampToInt32_eq {x : F} (hx : finite x) :
    (clampToInt32 x).toInt = nearestInt32 (val x) := by
  have hmax : InInt32 2147483647 := by decide
  have hmin : InInt32 (-2147483648) := by decide
  have hround := round_finite x hx
  have hval := round_val x hx
  simp only [clampToInt32, not_nan x hx, Bool.false_eq_true, ↓reduceIte,
    lt_iff _ _ (ofInt_finite _ hmax) hround, lt_iff _ _ hround (ofInt_finite _ hmin),
    ofInt_val _ hmax, ofInt_val _ hmin, hval, Int.cast_lt, nearestInt32]
  split
  · next hhi =>
    have hcap : (2147483647 : Int32).toInt = 2147483647 := by decide
    rw [hcap, min_eq_left hhi.le, max_eq_right (by decide)]
  · next hhi =>
    rw [min_eq_right (not_lt.1 hhi)]
    split
    · next hlo =>
      have hcap : (-2147483648 : Int32).toInt = -2147483648 := by decide
      rw [hcap, max_eq_left hlo.le]
    · next hlo =>
      have hin : InInt32 (nearest (val x)) := ⟨not_lt.1 hlo, not_lt.1 hhi⟩
      rw [toInt_eq _ _ hround hin hval, hin.toInt_ofInt, max_eq_right hin.1]

def Integral (x : F) : Prop :=
  ∃ n : Int32, x = ofInt n.toInt

omit [RealFloat F] in
theorem priorState_integral {p : PriorState F} (h : priorState status = some p) :
    Integral p.damping.score := by
  obtain ⟨t, _, rfl⟩ := Option.map_eq_some_iff.1 h
  exact ⟨_, rfl⟩

theorem finite_of_integral {x : F} (h : Integral x) : finite x := by
  obtain ⟨n, rfl⟩ := h
  exact ofInt_finite _ (inInt32_toInt n)

theorem DampingInfo.recorded_val {d : DampingInfo F} (h : finite d.score) :
    val d.recorded.score = nearestInt32 (val d.score) := by
  rw [DampingInfo.recorded, ofInt_val _ (inInt32_toInt _), clampToInt32_eq h]

theorem decayScore_finite {x : F} (h : Integral x) (elapsed halfLife : Duration) :
    finite (decayScore x elapsed halfLife) := by
  rw [decayScore]
  split
  · exact finite_of_integral h
  · next hpos =>
    obtain ⟨he, hh⟩ := not_or.1 hpos
    obtain ⟨n, rfl⟩ := h
    exact decay_finite _ _ _ (inInt32_toInt n) (not_le.1 he) (not_le.1 hh)

theorem DampingInfo.charged_finite {p : DampingInfo F} (h : Integral p.score) (now : Time)
    (dampening : Option DampeningConfig) : finite (p.charged now dampening) := by
  have hcarried : finite (p.carried now dampening) := decayScore_finite h _ _
  rw [DampingInfo.charged]
  split
  · exact penalty_finite _ hcarried
  · exact hcarried

theorem Suppresses.score_finite {s : Suppression F} (h : Suppresses now score since dampening s)
    (hscore : finite score) : finite s.score := by
  cases h with
  | capped => exact ofInt_finite 0 (by decide)
  | off | reused | kept | entered | calm => exact hscore

theorem Transition.score_finite {d : DampingInfo F} (h : Transition now cfg prev here d)
    (hp : ∀ p ∈ prev, Integral p.score) : finite d.score := by
  have hzero : finite (ofInt 0 : F) := ofInt_finite 0 (by decide)
  cases h with
  | fresh =>
    rw [newCandidateDamping]
    split
    · exact hzero
    · exact hzero
  | settling => exact hzero
  | @observed p =>
    obtain ⟨s, hs, _, _, hscore, _⟩ := observe_suppresses now p cfg.dampening
    rw [hscore]
    exact hs.score_finite (DampingInfo.charged_finite (hp p rfl) _ _)
  | @held p =>
    obtain ⟨s, hs, _, hscore, _⟩ := hold_suppresses now (p.withdrawnAt.getD now) p
      (durationOrZero cfg.withdrawalGrace) cfg.dampening
    rw [hscore]
    exact hs.score_finite (decayScore_finite (hp p rfl) _ _)

end Storing

section Loss

variable {F : Type} [Float64 F] [BoundedLoss F]
open RealFloat BoundedLoss

theorem decayScore_val {x : F} (h : Integral x) (hx : 0 ≤ val x) {elapsed : Duration}
    (he : 0 ≤ elapsed.ns) (halfLife : Duration) :
    val x * factor halfLife.ns elapsed.ns - loss F ≤ val (decayScore x elapsed halfLife) := by
  obtain ⟨n, rfl⟩ := h
  have hin := inInt32_toInt n
  have hloss := loss_nonneg (F := F)
  rw [ofInt_val _ hin] at hx ⊢
  rw [decayScore]
  split
  · next h =>
    have hone : factor halfLife.ns elapsed.ns = 1 := by
      rcases h with h | h
      · rw [le_antisymm h he, Int.cast_zero, factor_zero]
      · rw [factor, if_pos (Int.cast_nonpos.2 h)]
    rw [ofInt_val _ hin, hone]
    linarith
  · next h =>
    obtain ⟨he, hh⟩ := not_or.1 h
    exact decay_val _ _ _ hin (not_le.1 he) (not_le.1 hh) (Int.cast_nonneg_iff.1 hx)

theorem DampingInfo.carried_le_charged {p : DampingInfo F} (h : Integral p.score) (now : Time)
    (dampening : Option DampeningConfig) :
    val (p.carried now dampening) ≤ val (p.charged now dampening) := by
  rw [DampingInfo.charged]
  split
  · exact penalty_val _ (decayScore_finite h _ _)
  · exact le_refl _

end Loss

section Rationals

theorem factor_le_halves {elapsed halfLife : Duration} (he : 0 < elapsed.ns)
    (hh : 0 < halfLife.ns) :
    factor halfLife.ns elapsed.ns ≤ half ^ (elapsed.ns / halfLife.ns).toNat := by
  have hh' : (0 : ℝ) < halfLife.ns := Int.cast_pos.2 hh
  have hfloor : ((elapsed.ns / halfLife.ns).toNat : ℝ) ≤ elapsed.ns / halfLife.ns := by
    have hnat : ((elapsed.ns / halfLife.ns).toNat : Int) = elapsed.ns / halfLife.ns :=
      Int.toNat_of_nonneg (Int.ediv_nonneg he.le hh.le)
    have hmul : elapsed.ns / halfLife.ns * halfLife.ns ≤ elapsed.ns :=
      Int.ediv_mul_le _ hh.ne'
    rw [le_div_iff₀ hh', ← Int.cast_natCast, hnat]
    exact_mod_cast hmul
  rw [factor, if_neg (not_le.2 hh'), ← Real.rpow_natCast]
  exact Real.rpow_le_rpow_of_exponent_ge half_pos half_le_one hfloor

theorem lt_iff_rat (x y : Rat) : lt x y = true ↔ (x : ℝ) < y :=
  decide_eq_true_iff.trans Rat.cast_lt.symm

theorem roundRat_eq (q : Rat) : roundRat q = nearest q := by
  have hneg : (q : ℝ) < 0 ↔ q < 0 := by exact_mod_cast Iff.rfl
  have hfloor : ∀ p : Rat, p.floor = ⌊(p : ℝ)⌋ := fun p => (Rat.floor_cast p).symm
  simp only [roundRat, nearest, hneg, round_eq, hfloor]
  push_cast
  rw [neg_add_eq_sub]

theorem toInt_eq_rat {x : Rat} {n : Int} (h : (x : ℝ) = n) : toInt x = n := by
  have hx : x = n := by exact_mod_cast h
  subst hx
  change (if (n : Rat) < 0 then -(-(n : Rat)).floor else (n : Rat).floor) = n
  split
  · rw [← Rat.intCast_neg, Rat.floor_intCast, Int.neg_neg]
  · exact Rat.floor_intCast n

theorem penalty_val_rat (x : Rat) : (x : ℝ) ≤ ((add x (ofInt flapPenalty) : Rat) : ℝ) := by
  have h : x ≤ x + (flapPenalty : Rat) := le_add_of_nonneg_right (by norm_num [flapPenalty])
  exact Rat.cast_le.2 h

theorem decay_val_rat {n : Int} {elapsed halfLife : Duration} (he : 0 < elapsed.ns)
    (hh : 0 < halfLife.ns) (hn : 0 ≤ n) :
    n * factor halfLife.ns elapsed.ns - 0 ≤
      ((mul (ofInt n) (halves elapsed halfLife) : Rat) : ℝ) := by
  have hfactor := mul_le_mul_of_nonneg_left (factor_le_halves he hh)
    (Int.cast_nonneg hn : (0 : ℝ) ≤ n)
  have hval : ((mul (ofInt n) (halves elapsed halfLife) : Rat) : ℝ) =
      n * half ^ (elapsed.ns / halfLife.ns).toNat := by
    change (((n : Rat) * (1 / 2) ^ (elapsed.ns / halfLife.ns).toNat : Rat) : ℝ) = _
    rw [half]
    push_cast
    rfl
  rw [hval, sub_zero]
  exact hfactor

/-- The rational arithmetic of the sample runs decays no faster than it should. -/
noncomputable instance : BoundedLoss Rat where
  val q := q
  finite _ := True
  not_nan _ _ := rfl
  ofInt_finite _ _ := trivial
  ofInt_val n _ := Rat.cast_intCast n
  lt_iff x y _ _ := lt_iff_rat x y
  round_finite _ _ := trivial
  round_val x _ := (Rat.cast_intCast (roundRat x)).trans (congrArg Int.cast (roundRat_eq x))
  toInt_eq _ _ _ _ h := toInt_eq_rat h
  penalty_finite _ _ := trivial
  decay_finite _ _ _ _ _ _ := trivial
  loss := 0
  loss_nonneg := le_refl 0
  penalty_val x _ := penalty_val_rat x
  decay_val _ _ _ _ he hh hn := decay_val_rat he hh hn

@[simp] theorem val_rat (q : Rat) : RealFloat.val q = (q : ℝ) := rfl

@[simp] theorem loss_rat : BoundedLoss.loss Rat = 0 := rfl

end Rationals

section Memory

variable {F : Type} [Float64 F]

theorem lookup_prior_listed {prior : GoMap (PriorState F)}
    (hp : prior.entries.Perm (priorStateFromAdvertisedBackends items).entries) (k : String)
    (p : PriorState F) (hl : prior.lookup k = some p) :
    p.candidate.rejected = false ∧ Integral p.damping.score := by
  rw [AList.perm_lookup hp] at hl
  obtain ⟨b, _, hb⟩ := exists_priorState hl
  exact ⟨priorStateFromAdvertisedBackends_unrejected items k p hl, priorState_integral hb⟩

theorem lookup_prior_reconciled {candidates out : List (BackendCandidate F)}
    {prior : GoMap (PriorState F)} (hc : normalize routes cm = .ok candidates)
    (hp : prior.entries.Perm (priorStateFromAdvertisedBackends items).entries)
    (he : evaluate now candidates prior cfg = out)
    (hn : (out.map BackendCandidate.name).Nodup)
    (hs : ∀ c ∈ out, ∀ r ∈ s.lookup c.name, r.managed = true)
    (ht : ∀ c ∈ out, ∀ d ∈ c.damping, d.Stamped)
    (hr : Returns (reconcileBackends stamp (.ok out) policies) s () s')
    (k : String) (p : PriorState F) :
    (priorStateFromAdvertisedBackends s'.listManaged).lookup k = some p ↔
      ∃ c ∈ out, c.rejected = false ∧ c.name = k ∧
        ∃ d, c.damping = some d ∧ p = ⟨c.recorded, d.recorded⟩ := by
  have hmem : ∀ c ∈ out, c.rejected = true ∧ c.damping = none ∨
      c.rejected = false ∧ ∃ d, c.damping = some d ∧ d.Verdict := by
    intro c hm
    rw [← he] at hm
    exact (mem_evaluate hm).memorable (normalize_undamped (normalize_ok_iff.1 hc))
      fun k p hl => (lookup_prior_listed hp k p hl).1
  have hmemory : ∀ c ∈ out, ∀ d, c.damping = some d → c.memory = some ⟨c.recorded, d.recorded⟩ := by
    intro c hm d hd
    rw [BackendCandidate.memory, hd, Option.bind_some, (ht c hm d hd).kept_eq]
    rfl
  obtain ⟨_, rfl⟩ := hr.functional (reconcileBackends_returns _ _ _ _)
  rw [lookup_priorStateFromAdvertisedBackends,
    prior_swept_iff stamp policies hn hs hmem]
  constructor
  · rintro ⟨c, hm, hk, hp⟩
    rcases hmem c hm with ⟨_, hnone⟩ | ⟨hr, d, hd, _⟩
    · rw [BackendCandidate.memory, hnone] at hp
      cases hp
    · rw [hmemory c hm d hd] at hp
      exact ⟨c, hm, hr, hk, d, hd, (Option.some.inj hp).symm⟩
  · rintro ⟨c, hm, _, hk, d, hd, rfl⟩
    exact ⟨c, hm, hk, hmemory c hm d hd⟩

variable [RealFloat F]
open RealFloat

theorem Emits.score_finite {candidates : List (BackendCandidate F)}
    {prior : GoMap (PriorState F)} (h : Emits now candidates prior cfg c)
    (hu : ∀ c ∈ candidates, c.damping = none)
    (hp : ∀ k p, prior.lookup k = some p → Integral p.damping.score) (hd : c.damping = some d) :
    finite d.score := by
  cases h with
  | passed hc _ =>
    rw [hu _ hc] at hd
    cases hd
  | evaluated _ _ ht =>
    cases hd
    apply ht.score_finite
    intro p hm
    obtain ⟨q, hq, rfl⟩ := Option.map_eq_some_iff.1 hm
    exact hp _ q hq
  | synthesized hl _ ht =>
    cases hd
    apply ht.score_finite
    intro p hm
    cases hm
    exact hp _ _ hl

/-- The prior state that a record gives back of a candidate and its verdict: the same in all but
the score, which is rounded to the nearest integer and clamped to `int32`. A slice comes back with
the same elements, and as it was unless it was allocated but empty. -/
structure PriorState.Recalls (p : PriorState F) (c : BackendCandidate F) (d : DampingInfo F) :
    Prop where
  candidate : { p.candidate with asPath := c.asPath, largeCommunities := c.largeCommunities } =
    { c with rejected := false, reason := "", damping := none }
  asPath : p.candidate.asPath.elems = c.asPath.elems
  asPath_eq : c.asPath ≠ .made [] → p.candidate.asPath = c.asPath
  largeCommunities : p.candidate.largeCommunities.elems = c.largeCommunities.elems
  largeCommunities_eq : c.largeCommunities ≠ .made [] →
    p.candidate.largeCommunities = c.largeCommunities
  damping : { p.damping with score := d.score } = d
  score : p.damping.score = ofInt (nearestInt32 (val d.score))

omit [Float64 F] [RealFloat F] in
theorem GoSlice.stored_elems (s : GoSlice α) : s.stored.elems = s.elems := by
  cases s with
  | nil => rfl
  | made l => cases l <;> rfl

omit [Float64 F] [RealFloat F] in
theorem GoSlice.stored_eq {s : GoSlice α} (h : s ≠ .made []) : s.stored = s := by
  cases s with
  | nil => rfl
  | made l =>
    cases l with
    | nil => exact absurd rfl h
    | cons a l => rfl

theorem recalls_recorded (c : BackendCandidate F) {d : DampingInfo F} (h : finite d.score) :
    PriorState.Recalls ⟨c.recorded, d.recorded⟩ c d where
  candidate := rfl
  asPath := GoSlice.stored_elems _
  asPath_eq := GoSlice.stored_eq
  largeCommunities := GoSlice.stored_elems _
  largeCommunities_eq := GoSlice.stored_eq
  damping := rfl
  score := by rw [DampingInfo.recorded, clampToInt32_eq h]

/-- The damper's memory is durable: after a sweep the records hold one entry for each accepted
candidate, with all that the next tick needs of it, and no other. -/
theorem reconcileBackends_prior {candidates out : List (BackendCandidate F)}
    {prior : GoMap (PriorState F)} (hc : normalize routes cm = .ok candidates)
    (hp : prior.entries.Perm (priorStateFromAdvertisedBackends items).entries)
    (he : evaluate now candidates prior cfg = out)
    (hn : (out.map BackendCandidate.name).Nodup)
    (hs : ∀ c ∈ out, ∀ r ∈ s.lookup c.name, r.managed = true)
    (ht : ∀ c ∈ out, ∀ d ∈ c.damping, d.Stamped)
    (hr : Returns (reconcileBackends stamp (.ok out) policies) s () s') :
    (∀ k, k ∈ (priorStateFromAdvertisedBackends s'.listManaged : GoMap (PriorState F)) ↔
      ∃ c ∈ out, c.rejected = false ∧ c.name = k) ∧
    ∀ c ∈ out, c.rejected = false → ∃ d p, c.damping = some d ∧
      (priorStateFromAdvertisedBackends s'.listManaged).lookup c.name = some p ∧
      p.Recalls c d := by
  have hlookup := lookup_prior_reconciled hc hp he hn hs ht hr
  have hundamped := normalize_undamped (normalize_ok_iff.1 hc)
  have hprior := lookup_prior_listed hp
  have hdamped : ∀ c ∈ out, c.rejected = false → ∃ d, c.damping = some d ∧ finite d.score := by
    intro c hm hrej
    rw [← he] at hm
    have hemits := mem_evaluate hm
    rcases hemits.memorable hundamped fun k p hl => (hprior k p hl).1 with
      ⟨htrue, _⟩ | ⟨_, d, hd, _⟩
    · rw [hrej] at htrue
      cases htrue
    · exact ⟨d, hd, hemits.score_finite hundamped (fun k p hl => (hprior k p hl).2) hd⟩
  constructor
  · intro k
    rw [← AList.lookup_isSome, Option.isSome_iff_exists]
    constructor
    · rintro ⟨p, hl⟩
      obtain ⟨c, hm, hrej, hk, _⟩ := (hlookup k p).1 hl
      exact ⟨c, hm, hrej, hk⟩
    · rintro ⟨c, hm, hrej, hk⟩
      obtain ⟨d, hd, _⟩ := hdamped c hm hrej
      exact ⟨_, (hlookup k _).2 ⟨c, hm, hrej, hk, d, hd, rfl⟩⟩
  · intro c hm hrej
    obtain ⟨d, hd, hfinite⟩ := hdamped c hm hrej
    exact ⟨d, _, hd, (hlookup c.name _).2 ⟨c, hm, hrej, rfl, d, hd, rfl⟩,
      recalls_recorded c hfinite⟩

end Memory

section Sample

/-- The route of the sample candidate, and one that Authorize has refused. -/
def spokeRoutes : List RIBRoute :=
  [⟨"10.1.0.0/24", "spoke", "192.0.2.1", ⟨"eu", "a"⟩, 4294967295, .made [64512, 4200000000],
      .made ["64512:1:2"], false, ""⟩,
    ⟨"10.9.0.0/24", "", "192.0.2.1", ⟨"", ""⟩, 0, .nil, .made [], true, "not allowed"⟩]

def refusedCandidate : BackendCandidate Rat :=
  { RIBRoute.candidate ⟨"10.9.0.0/24", "", "192.0.2.1", ⟨"", ""⟩, 0, .nil, .made [], true,
      "not allowed"⟩ with
    rejected := true
    reason := "not allowed" }

def flappedRecord : AdvertisedBackend :=
  { buildOne spokeCandidate [] with
    status := { (buildOne spokeCandidate []).status with
      stability := ⟨3, 125, some ⟨second⟩, none, none, none⟩ } }

def spokeConfig : BGPStabilityConfigSpec :=
  ⟨some (.seconds 30), none, some ⟨true, some (.seconds 5), none, none, none⟩⟩

def decayedVerdict : DampingInfo Rat :=
  ⟨.active, "", 125 / 2, 3, ⟨6 * second⟩, none, none, none⟩

def decayedOutput : List (BackendCandidate Rat) :=
  [{ spokeCandidate with damping := some decayedVerdict }, refusedCandidate]

/-- The record itself, and one that is not desired any more. -/
def flappedRecords : Records :=
  ((∅ : Records).insert "10-1-0-0-24-spoke" ⟨flappedRecord.labels, flappedRecord.status⟩).insert
    "10-8-0-0-24-gone" ⟨flappedRecord.labels, flappedRecord.status⟩

theorem nearestInt32_decayed : nearestInt32 ((125 / 2 : Rat) : ℝ) = 63 := by
  have hround : nearest ((125 / 2 : Rat) : ℝ) = 63 := by
    rw [nearest_of_nonneg (by norm_num), round_eq, Int.floor_eq_iff]
    constructor <;> norm_num
  rw [nearestInt32, hround]
  decide

theorem reconcileBackends_prior_spoke :
    ∃ p, (priorStateFromAdvertisedBackends
        (swept ⟨6 * second⟩ decayedOutput [] flappedRecords).listManaged).lookup
          "10-1-0-0-24-spoke" = some p ∧
      p.Recalls { spokeCandidate with damping := some decayedVerdict } decayedVerdict ∧
      p.damping.score = 63 := by
  have hnorm : normalize spokeRoutes none = .ok [spokeCandidate, refusedCandidate] := rfl
  have hprior : (priorStateFromAdvertisedBackends [flappedRecord] :
      GoMap (PriorState Rat)).entries.Perm
        (priorStateFromAdvertisedBackends [flappedRecord]).entries := .refl _
  have heval : evaluate ⟨6 * second⟩ [spokeCandidate, refusedCandidate]
      (priorStateFromAdvertisedBackends [flappedRecord]) spokeConfig = decayedOutput := by
    decide +kernel
  have hall : ∀ c ∈ decayedOutput, (flappedRecords.lookup c.name).all Record.managed = true := by
    decide +kernel
  have hmanaged : ∀ c ∈ decayedOutput, ∀ r ∈ flappedRecords.lookup c.name, r.managed = true := by
    intro c hc r hr
    have hm := hall c hc
    rw [hr] at hm
    exact hm
  have hstamped : ∀ c ∈ decayedOutput, ∀ d ∈ c.damping, d.Stamped := by
    intro c hc d hd
    rcases List.mem_cons.1 hc with rfl | hc
    · cases hd
      exact ⟨by decide, forall_mem_none, forall_mem_none, forall_mem_none⟩
    · cases List.mem_singleton.1 hc
      cases hd
  obtain ⟨d, p, hd, hlookup, hrecalls⟩ := (reconcileBackends_prior hnorm hprior heval
    (by decide +kernel) hmanaged hstamped (reconcileBackends_returns ⟨6 * second⟩ decayedOutput []
      flappedRecords)).2 _ (.head _) rfl
  cases hd
  have hscore := hrecalls.score
  rw [val_rat, decayedVerdict, nearestInt32_decayed] at hscore
  exact ⟨p, hlookup, hrecalls, hscore⟩

end Sample

end Kreg
