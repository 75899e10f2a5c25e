import Kreg.Coherence
import Kreg.HoldDown
import Kreg.PolicyReconciler

namespace Kreg
open ApiServer
set_option autoImplicit true

variable {F : Type}

section Rendering

def BackendCandidate.bare (c : BackendCandidate F) : BackendCandidate F :=
  { c with damping := none }

theorem servable_bare {c : BackendCandidate F} (h : c.servable = true) :
    c.bare.servable = true := by
  rw [BackendCandidate.servable, Bool.and_eq_true] at h ⊢
  exact ⟨h.1, rfl⟩

theorem selectOne_of_unservable {c : BackendCandidate F} (h : c.servable = false)
    (sel : BackendSelector) : selectOne sel c = .ok false := by
  simp only [selectOne, h, Bool.false_and, Bool.false_eq_true, ↓reduceIte]

theorem select_bare (l : List (BackendCandidate F)) (sel : BackendSelector) :
    select ((l.filter BackendCandidate.servable).map BackendCandidate.bare) sel =
      (select l sel).map (List.map BackendCandidate.bare) := by
  induction l with
  | nil => rfl
  | cons c rest ih =>
    by_cases hs : c.servable = true
    · have hone : selectOne sel c.bare = selectOne sel c :=
        selectOne_congr ((servable_bare hs).trans hs.symm) rfl rfl rfl sel
      rw [List.filter_cons_of_pos hs, List.map_cons, select, hone, ih, select]
      cases selectOne sel c with
      | error e => rfl
      | ok keep =>
        cases select rest sel with
        | error e => rfl
        | ok selected => cases keep <;> rfl
    · rw [List.filter_cons_of_neg hs, ih, select,
        selectOne_of_unservable (Bool.not_eq_true _ ▸ hs)]
      cases select rest sel <;> rfl

theorem renderEndpointSlices_bare (policy : BGPBackendPolicy) (svc : String)
    (l : List (BackendCandidate F)) :
    renderEndpointSlices policy svc (l.map BackendCandidate.bare) =
      renderEndpointSlices policy svc l := by
  induction l with
  | nil => rfl
  | cons c rest ih =>
    rw [List.map_cons, renderEndpointSlices, ih, renderEndpointSlices]
    rfl

theorem render_bare (policy : BGPBackendPolicy) (l : List (BackendCandidate F)) :
    render policy ((l.filter BackendCandidate.servable).map BackendCandidate.bare) istioDriver =
      render policy l istioDriver := by
  rw [render, render, select_bare]
  cases select l policy.selector with
  | error e => rfl
  | ok selected =>
    simp only [Except.map, renderEndpointSlices_bare]
    rfl

/-- Reconciles with the same servable candidates do the same, call by call. -/
theorem reconcilePolicy_of_servable {l l' : List (BackendCandidate F)}
    (h : (l.filter BackendCandidate.servable).map BackendCandidate.bare =
      (l'.filter BackendCandidate.servable).map BackendCandidate.bare) (key : NamespacedName) :
    reconcilePolicy istioDriver (.ok l) key = reconcilePolicy istioDriver (.ok l') key := by
  have hrender (policy : BGPBackendPolicy) :
      render policy l istioDriver = render policy l' istioDriver := by
    rw [← render_bare, h, render_bare]
  simp only [reconcilePolicy, hrender]

end Rendering

section Settling

variable [Float64 F] {r : Run F}

theorem Transition.pending_since {d : DampingInfo F} (h : Transition now cfg prev here d)
    (hs : d.state = .pending) :
    ∃ t, d.pendingSince = some t ∧ (now.sub t).ns < (durationOrZero cfg.additionDelay).ns := by
  cases h with
  | fresh =>
    rw [newCandidateDamping] at hs ⊢
    split at hs
    · cases hs
    · next hd =>
      rw [if_neg hd]
      exact ⟨now, rfl, Time.sub_self now ▸ not_le.1 hd⟩
  | settling _ hd => exact ⟨_, rfl, hd⟩
  | observed _ => exact absurd hs (observe_not_pending _ _ _)
  | held _ _ => exact absurd hs (hold_not_pending _ _ _ _ _)

theorem Transition.withdrawn_since {d : DampingInfo F} (h : Transition now cfg prev false d) :
    ∃ t, d.withdrawnAt = some t ∧ (now.sub t).ns < (durationOrZero cfg.withdrawalGrace).ns := by
  cases h with
  | held _ hg => exact ⟨_, rfl, hg⟩

theorem delay_of_unneeded (h : needsPriorState cfg = false) :
    (durationOrZero cfg.additionDelay).ns ≤ 0 := by
  rw [needsPriorState, Bool.or_eq_false_iff, Bool.or_eq_false_iff] at h
  exact not_lt.1 (of_decide_eq_false h.1.2)

namespace Run.InSeconds

theorem pendingSince_le (hr : r.InSeconds) (h₀ : r.start = ∅) (hij : i ≤ j)
    (hhere : ∀ l, i ≤ l → l ≤ j → r.here k l = true) (hv : r.verdict k j = some d)
    (ht : d.pendingSince = some t) : t.ns ≤ (r.now i).ns := by
  induction j, hij using Nat.le_induction generalizing d t with
  | base => exact (hr.timed h₀ hv).pending t ht
  | succ j hij ih =>
    have hbefore : ∀ l, i ≤ l → l ≤ j → r.here k l = true :=
      fun l hl hlj => hhere l hl (hlj.trans j.le_succ)
    have hp : ∃ p, r.verdict k j = some p := by
      rw [Run.verdict, hbefore j hij le_rfl]
      exact verdict_present ..
    obtain ⟨p, hp⟩ := hp
    have htrans := Run.transition hv
    rw [hhere (j + 1) (hij.trans j.le_succ) le_rfl] at htrans
    cases hn : needsPriorState r.cfg with
    | false =>
      rw [r.memory_of_unneeded hn] at htrans
      cases htrans
      rw [newCandidateDamping, if_pos (delay_of_unneeded hn)] at ht
      cases ht
    | true =>
      rw [hr.memory_succ hn, hp] at htrans
      cases htrans with
      | settling hs _ =>
        cases ht
        obtain ⟨u, hu⟩ := Option.isSome_iff_exists.1 ((Run.transition hp).shaped.pending.2 hs)
        rw [DampingInfo.pendingFrom, DampingInfo.recorded, hu]
        exact ih hbefore hp hu
      | observed _ => cases ht

theorem withdrawnAt_le (hr : r.InSeconds) (h₀ : r.start = ∅) (hij : i ≤ j)
    (habs : ∀ l, i ≤ l → l ≤ j → r.here k l = false) (hv : r.verdict k j = some d)
    (ht : d.withdrawnAt = some t) : t.ns ≤ (r.now i).ns := by
  induction j, hij using Nat.le_induction generalizing d t with
  | base => exact (hr.timed h₀ hv).withdrawn t ht
  | succ j hij ih =>
    have hbefore : ∀ l, i ≤ l → l ≤ j → r.here k l = false :=
      fun l hl hlj => habs l hl (hlj.trans j.le_succ)
    have htrans := Run.transition hv
    rw [habs (j + 1) (hij.trans j.le_succ) le_rfl] at htrans
    cases hm : r.memory k (j + 1) with
    | none =>
      rw [hm] at htrans
      cases htrans
    | some p =>
      obtain ⟨d₀, hd₀, hkept⟩ := Run.memory_succ_eq_some hm
      rw [hr.kept_eq hd₀] at hkept
      cases hkept
      rw [hm] at htrans
      cases htrans with
      | held _ _ =>
        cases ht
        have hshaped := (Run.transition hd₀).shaped.withdrawn.2 (hbefore j hij le_rfl)
        obtain ⟨u, hu⟩ := Option.isSome_iff_exists.1 hshaped
        rw [DampingInfo.recorded, hu]
        exact ih hbefore hd₀ hu

theorem not_pending (hr : r.InSeconds) (h₀ : r.start = ∅) (hij : i ≤ j)
    (hhere : ∀ l, i ≤ l → l ≤ j → r.here k l = true)
    (hdelay : (durationOrZero r.cfg.additionDelay).ns ≤ (r.now j).ns - (r.now i).ns)
    (hv : r.verdict k j = some d) : d.state ≠ .pending := by
  intro hs
  obtain ⟨t, ht, hlt⟩ := (Run.transition hv).pending_since hs
  have hti := hr.pendingSince_le h₀ hij hhere hv ht
  rw [Time.sub_lt_iff (hti.trans (hr.now_le hij))] at hlt
  omega

theorem verdict_eq_none (hr : r.InSeconds) (h₀ : r.start = ∅) (hij : i ≤ j)
    (habs : ∀ l, i ≤ l → l ≤ j → r.here k l = false)
    (hgrace : (durationOrZero r.cfg.withdrawalGrace).ns ≤ (r.now j).ns - (r.now i).ns) :
    r.verdict k j = none := by
  rw [Option.eq_none_iff_forall_ne_some]
  intro d hv
  have htrans := Run.transition hv
  rw [habs j hij le_rfl] at htrans
  obtain ⟨t, ht, hlt⟩ := htrans.withdrawn_since
  have hti := hr.withdrawnAt_le h₀ hij habs hv ht
  rw [Time.sub_lt_iff (hti.trans (hr.now_le hij))] at hlt
  omega

end Run.InSeconds

def Run.suppresses (r : Run F) (n : Nat) (c : BackendCandidate F) : Bool :=
  (r.verdict c.name n).any fun d => d.state == .dampened

theorem Run.synthesize_eq_nil (h : ∀ k, r.here k n = false → r.verdict k n = none) :
    synthesize (r.now n) (r.tick n).candidates ((r.tick n).prior r.cfg (r.store n)) r.cfg =
      [] := by
  rw [synthesize, List.filterMap_eq_nil_iff]
  intro e he
  split
  · rfl
  · next hseen =>
    have hhere : r.here e.1 n = false := by
      rw [Run.here, ← Bool.not_eq_true, present_isSome, ← mem_seen]
      exact hseen
    have hv := h e.1 hhere
    rw [Run.verdict, hhere, Run.memory, AList.mem_lookup_iff.2 he] at hv
    rw [evaluateAbsent, Option.map_eq_none_iff]
    exact hv

theorem Run.evaluateCandidate_servable (hpending : ∀ k d, r.here k n = true →
      r.verdict k n = some d → d.state ≠ .pending) (hc : c ∈ (r.tick n).candidates) :
    (evaluateCandidate (r.now n) ((r.tick n).prior r.cfg (r.store n)) r.cfg c).servable =
      (!r.suppresses n c && c.servable) := by
  have hundamped := (r.tick n).undamped c hc
  cases hrej : c.rejected with
  | true =>
    simp only [evaluateCandidate, hrej, if_true, BackendCandidate.servable, Bool.not_true,
      Bool.false_and, Bool.and_false]
  | false =>
    have hhere : r.here c.name n = true := r.here_eq_true_iff.2 ⟨c, hc, hrej, rfl⟩
    have hv : r.verdict c.name n = some (evaluatePresent (r.now n) (r.memory c.name n)
        (durationOrZero r.cfg.additionDelay) r.cfg.dampening) := by
      rw [Run.verdict, Kreg.verdict, hhere, if_pos rfl]
    have hp := hpending c.name _ hhere hv
    rw [Run.suppresses, hv, Option.any_some]
    rw [Run.memory] at hp ⊢
    simp only [evaluateCandidate, hrej, Bool.false_eq_true, if_false, BackendCandidate.servable,
      hundamped, Bool.not_false, Bool.true_and, Bool.and_true]
    change (_ && _) = !_
    rw [bne_iff_ne.2 hp, Bool.and_true]
    rfl

theorem Run.emitted_servable (hpending : ∀ k d, r.here k n = true → r.verdict k n = some d →
      d.state ≠ .pending) (hheld : ∀ k, r.here k n = false → r.verdict k n = none) :
    ((r.emitted n).filter BackendCandidate.servable).map BackendCandidate.bare =
      (((r.tick n).candidates.filter fun c => !r.suppresses n c).filter
        BackendCandidate.servable).map BackendCandidate.bare := by
  let evaluated := evaluateCandidate (r.now n) ((r.tick n).prior r.cfg (r.store n)) r.cfg
  have hemitted : r.emitted n = (r.tick n).candidates.map evaluated := by
    rw [Run.emitted, Tick.emitted, evaluate]
    exact (congrArg _ (Run.synthesize_eq_nil hheld)).trans (List.append_nil _)
  have hbare : BackendCandidate.bare ∘ evaluated = BackendCandidate.bare := by
    funext c
    change (evaluateCandidate _ _ _ c).bare = c.bare
    rw [evaluateCandidate]
    split <;> rfl
  rw [hemitted, List.filter_map, List.map_map, hbare, List.filter_filter]
  congr 1
  apply List.filter_congr
  intro c hc
  rw [Bool.and_comm]
  exact Run.evaluateCandidate_servable hpending hc

theorem Transition.active_of_off {d : DampingInfo F} (h : Transition now cfg prev here d)
    (hoff : ∀ dc, cfg.dampening = some dc → dc.enabled = false) : d.state ≠ .dampened := by
  have hcalm {score : F} {since : Option Time} : ¬ Suppressed now score since cfg.dampening := by
    intro hs
    cases hc : cfg.dampening with
    | none =>
      rw [hc] at hs
      exact hs
    | some dc =>
      rw [hc] at hs
      cases (hoff dc hc).symm.trans hs.1
  cases h with
  | fresh =>
    rw [newCandidateDamping]
    split
    · exact BackendState.noConfusion
    · exact BackendState.noConfusion
  | settling _ _ => exact BackendState.noConfusion
  | observed _ => exact fun hs => hcalm ((observe_dampened_iff _ _ _).1 hs)
  | held _ _ => exact fun hs => hcalm ((hold_dampened_iff _ _ _ _ _).1 hs)

theorem Run.suppresses_of_off (hoff : ∀ dc, r.cfg.dampening = some dc → dc.enabled = false)
    (n : Nat) (c : BackendCandidate F) : r.suppresses n c = false := by
  rw [Run.suppresses]
  cases hv : r.verdict c.name n with
  | none => rfl
  | some d => exact beq_false_of_ne ((Run.transition hv).active_of_off hoff)

/-- Once the accepted routes have not changed for as long as the delay and the grace, a policy is
reconciled as it would be without a damper, call by call, but for the backends that are
suppressed. -/
theorem Run.reconcile_settles (r : Run F) (hsec : r.InSeconds) (h₀ : r.start = ∅) (hij : i ≤ j)
    (hstable : ∀ l, i ≤ l → l ≤ j → ∀ k, r.here k l = r.here k j)
    (hdelay : (durationOrZero r.cfg.additionDelay).ns ≤ (r.now j).ns - (r.now i).ns)
    (hgrace : (durationOrZero r.cfg.withdrawalGrace).ns ≤ (r.now j).ns - (r.now i).ns)
    (key : NamespacedName) :
    reconcilePolicy istioDriver (.ok (r.emitted j)) key =
        reconcilePolicy istioDriver
          (.ok ((r.tick j).candidates.filter fun c => !r.suppresses j c)) key ∧
      ((∀ dc, r.cfg.dampening = some dc → dc.enabled = false) →
        reconcilePolicy istioDriver (.ok (r.emitted j)) key =
          reconcilePolicy istioDriver (.ok (r.tick j).candidates) key) := by
  have hpending (k : String) (d : DampingInfo F) (hhere : r.here k j = true)
      (hv : r.verdict k j = some d) : d.state ≠ .pending :=
    hsec.not_pending h₀ hij (fun l hl hlj => (hstable l hl hlj k).trans hhere) hdelay hv
  have hheld (k : String) (habs : r.here k j = false) : r.verdict k j = none :=
    hsec.verdict_eq_none h₀ hij (fun l hl hlj => (hstable l hl hlj k).trans habs) hgrace
  have hsettled := reconcilePolicy_of_servable (Run.emitted_servable hpending hheld) key
  refine ⟨hsettled, ?_⟩
  intro hoff
  have hall : ((r.tick j).candidates.filter fun c => !r.suppresses j c) =
      (r.tick j).candidates := by
    rw [List.filter_eq_self]
    intro c _
    rw [Run.suppresses_of_off hoff, Bool.not_false]
  rw [hsettled, hall]

end Settling

/-- A route that stays, under a delay and a grace of two ticks. -/
def settledRun : Run Rat :=
  sampleRun Rat ⟨some (.seconds 10), some (.seconds 10), none⟩ 5 fun _ => .accepted

theorem reconcile_settles_ten :
    reconcilePolicy istioDriver (.ok (settledRun.emitted 2)) ⟨"gateways", "web"⟩ =
      reconcilePolicy istioDriver (.ok (settledRun.tick 2).candidates) ⟨"gateways", "web"⟩ := by
  have hsec : settledRun.InSeconds := sampleRun_inSeconds _ _ _
  have hstable : ∀ l, 0 ≤ l → l ≤ 2 → ∀ k, settledRun.here k l = settledRun.here k 2 :=
    fun _ _ _ _ => rfl
  have hten : 10 * second ≤ (settledRun.now 2).ns - (settledRun.now 0).ns := by decide
  apply (settledRun.reconcile_settles hsec rfl (Nat.zero_le 2) hstable hten hten _).2
  intro dc hdc
  cases hdc

end Kreg
