import Kreg.FirstSeen
import Kreg.LastChange

namespace Kreg
open ApiServer
set_option autoImplicit true

variable {F : Type} [Float64 F]

section Foreign

/-- The record is still there under its own labels; none of the names is its name, or else its
status may be another. -/
def Record.KeptIn (x : Record) (k : String) (names : List String) (s : Records) : Prop :=
  ∃ y, s.lookup k = some y ∧ y.labels = x.labels ∧ (k ∉ names → y = x)

theorem Record.KeptIn.applied {x : Record} {s : Records} (h : x.KeptIn k names s)
    (hb : b.name ∈ names) (stamp : Time) : x.KeptIn k names (applied stamp s b) := by
  obtain ⟨y, hy, hlabels, hsame⟩ := h
  rw [Record.KeptIn, lookup_applied, hy]
  split
  · next hk => exact ⟨_, rfl, hlabels, fun hnot => absurd (hk ▸ hb) hnot⟩
  · exact ⟨y, rfl, hlabels, hsame⟩

theorem Record.KeptIn.bared {x : Record} {s : Records} (h : x.KeptIn k names s)
    (hnone : s.lookup b.name = none) : x.KeptIn k names (bared s b) := by
  obtain ⟨y, hy, hkept⟩ := h
  exact ⟨y, lookup_bared_of_some hy hnone, hkept⟩

theorem Record.KeptIn.erase {x : Record} {s : Records} (h : x.KeptIn k names s)
    (hk : k ≠ name) : x.KeptIn k names (s.erase name) := by
  obtain ⟨y, hy, hkept⟩ := h
  exact ⟨y, (AList.lookup_erase_ne hk).trans hy, hkept⟩

theorem Record.KeptIn.ne_of_mem {x : Record} {s : Records} (h : x.KeptIn k names s)
    (hx : x.managed = false) (hb : b ∈ s.listManaged) : k ≠ b.name := by
  intro hk
  obtain ⟨y, hy, hlabels, _⟩ := h
  obtain ⟨r, hr, hm⟩ := (mem_listManaged_names s b.name).1 (List.mem_map_of_mem hb)
  rw [hk, hr] at hy
  cases hy
  rw [Record.managed, hlabels] at hm
  cases hx.symm.trans hm

theorem Attempt.keptIn (a : Attempt F) {s : Records} (hx : s.lookup k = some x)
    (hm : x.managed = false) : ∃ y, (a.leaves s).lookup k = some y ∧ y.labels = x.labels ∧
      ((∀ candidates, a.snapshot = .ok candidates → ∀ c ∈ candidates, c.name ≠ k) → y = x) := by
  cases hsnap : a.snapshot with
  | error e =>
    rw [Attempt.leaves_of_error hsnap]
    exact ⟨x, hx, rfl, fun _ => rfl⟩
  | ok candidates =>
    have hinv : Ends (reconcileBackends a.stamp (.ok candidates) a.policies) s
        (fun _ => x.KeptIn k (candidates.map BackendCandidate.name))
        (fun _ => x.KeptIn k (candidates.map BackendCandidate.name)) := by
      apply reconcileBackends_inv (I := x.KeptIn k (candidates.map BackendCandidate.name))
      · exact ⟨x, hx, rfl, fun _ => rfl⟩
      · exact fun _ h => h
      · intro b hb s' hs'
        apply hs'.applied
        rw [← buildAdvertisedBackends_names candidates a.policies]
        exact List.mem_map_of_mem hb
      · exact fun b _ s' hs' hnone => hs'.bared hnone
      · exact fun s' hs' b hb _ s'' hs'' => hs''.erase (hs'.ne_of_mem hm hb)
    rw [← hsnap] at hinv
    obtain ⟨y, hy, hlabels, hsame⟩ := hinv.store a.faults
    refine ⟨y, hy, hlabels, fun hnot => hsame ?_⟩
    intro hk
    obtain ⟨c, hc, hname⟩ := List.mem_map.1 hk
    exact hnot candidates rfl c hc hname

/-- A record that does not carry the Report stage's label is never deleted and never gets it,
whatever the sweeps do and wherever they fail. It is not changed at all as long as no backend has
its name. -/
theorem Attempts.unmanaged_kept (r : Attempts F) (hx : (r.store m).lookup k = some x)
    (hm : x.managed = false) (hmn : m ≤ n) :
    ∃ y, (r.store n).lookup k = some y ∧ y.labels = x.labels ∧
      ((∀ i, m ≤ i → i < n → ∀ candidates, (r.attempt i).snapshot = .ok candidates →
        ∀ c ∈ candidates, c.name ≠ k) → y = x) := by
  induction n, hmn using Nat.le_induction with
  | base => exact ⟨x, hx, rfl, fun _ => rfl⟩
  | succ n hmn ih =>
    obtain ⟨y, hy, hlabels, hsame⟩ := ih
    have hy' : y.managed = false := by
      rw [Record.managed, hlabels]
      exact hm
    obtain ⟨z, hz, hlabels', hsame'⟩ := (r.attempt n).keptIn hy hy'
    refine ⟨z, hz, hlabels'.trans hlabels, ?_⟩
    intro hnot
    rw [hsame' (hnot n hmn n.lt_succ_self)]
    exact hsame fun i hi hin => hnot i hi (Nat.lt_succ_of_lt hin)

end Foreign

/-- Sweeps over a record that somebody else made, the second of them without the rights to write. -/
def notedAttempts : Attempts Rat where
  start := AList.singleton "notes" ⟨[("team", "edge")], .empty⟩
  dated := by
    intro k x hx
    obtain ⟨_, hx⟩ := List.mem_singleton.1 (AList.mem_lookup_iff.1 hx)
    rfl
  attempt n := ⟨⟨second⟩, .ok [spokeCandidate], [], if n = 1 then [false, false, true] else []⟩

theorem unmanaged_kept_noted :
    (notedAttempts.store 3).lookup "notes" = some ⟨[("team", "edge")], .empty⟩ := by
  have hx : (notedAttempts.store 0).lookup "notes" = some ⟨[("team", "edge")], .empty⟩ := by
    decide +kernel
  obtain ⟨y, hy, _, hsame⟩ := notedAttempts.unmanaged_kept hx rfl (Nat.zero_le 3)
  rw [hy, hsame]
  intro i _ _ candidates hsnap c hc
  cases hsnap
  cases List.mem_singleton.1 hc
  decide +kernel

section View

def AdvertisedBackendStatus.undated (s : AdvertisedBackendStatus) : AdvertisedBackendStatus :=
  { s with firstSeen := none, lastChange := none }

theorem written_undated (stamp : Time) (c : BackendCandidate F) (policies : List BGPBackendPolicy)
    (o : Option Record) :
    (written stamp (buildOne c policies) o).status.undated =
      (buildOne c policies).status.stored := by
  cases o with
  | none => rfl
  | some x => rfl

omit [Float64 F] in
theorem rewritten_cases (stamp : Time) (k : String) (l : List AdvertisedBackend)
    (o : Option Record) :
    (∃ b ∈ l, b.name = k ∧ ∃ o', rewritten stamp k o l = some (written stamp b o')) ∨
      (∀ b ∈ l, b.name ≠ k) ∧ rewritten stamp k o l = o := by
  induction l generalizing o with
  | nil => exact .inr ⟨List.forall_mem_nil _, rfl⟩
  | cons a l ih =>
    rw [rewritten_cons]
    rcases ih (if a.name = k then some (written stamp a o) else o) with
      ⟨b, hb, hk, hlast⟩ | ⟨hl, hsame⟩
    · exact .inl ⟨b, .tail _ hb, hk, hlast⟩
    · by_cases ha : a.name = k
      · rw [if_pos ha] at hsame ⊢
        exact .inl ⟨a, .head _, ha, o, hsame⟩
      · rw [if_neg ha] at hsame ⊢
        exact .inr ⟨List.forall_mem_cons.2 ⟨ha, hl⟩, hsame⟩

theorem lookup_swept_cases (stamp : Time) (candidates : List (BackendCandidate F))
    (policies : List BGPBackendPolicy) (s : Records) (k : String) :
    (∃ c ∈ candidates, c.name = k ∧ ∃ o, (swept stamp candidates policies s).lookup k =
        some (written stamp (buildOne c policies) o)) ∨
      (∀ c ∈ candidates, c.name ≠ k) ∧ (swept stamp candidates policies s).lookup k =
        (s.lookup k).filter fun x => !x.managed := by
  rw [swept]
  rcases rewritten_cases stamp k (buildAdvertisedBackends candidates policies) (s.lookup k) with
    ⟨b, hb, hk, o, hlast⟩ | ⟨hnone, hsame⟩
  · obtain ⟨c, hc, rfl⟩ := List.mem_map.1 hb
    have hmem : k ∈ candidates.map BackendCandidate.name := hk ▸ List.mem_map_of_mem hc
    rw [lookup_pruned_of_mem _ hmem, lookup_foldl_applied, hlast]
    exact .inl ⟨c, hc, hk, o, rfl⟩
  · have hother : ∀ c ∈ candidates, c.name ≠ k :=
      fun c hc => hnone (buildOne c _) (List.mem_map_of_mem hc)
    have hnot : k ∉ candidates.map BackendCandidate.name := by
      intro hk
      obtain ⟨c, hc, hname⟩ := List.mem_map.1 hk
      exact hother c hc hname
    rw [lookup_pruned_of_notMem _ hnot, lookup_foldl_applied, hsame]
    exact .inr ⟨hother, rfl⟩

/-- Whatever earlier sweeps have left half done, one that returns puts the view right: each backend
of its snapshot has a record with the status built for it, and of the other records those are left,
as they were, that are not the Report stage's own. -/
theorem Attempts.view_exact (r : Attempts F) (hsnap : (r.attempt n).snapshot = .ok candidates)
    (hok : (r.attempt n).Succeeds (r.store n)) (k : String) :
    (∃ c ∈ candidates, c.name = k ∧ ∃ x, (r.store (n + 1)).lookup k = some x ∧
        x.status.undated = (buildOne c (r.attempt n).policies).status.stored) ∨
      (∀ c ∈ candidates, c.name ≠ k) ∧
        (r.store (n + 1)).lookup k = ((r.store n).lookup k).filter fun x => !x.managed := by
  rw [Attempts.store, Attempt.leaves_eq_swept hsnap hok]
  rcases lookup_swept_cases (r.attempt n).stamp candidates (r.attempt n).policies (r.store n) k with
    ⟨c, hc, hk, o, hlookup⟩ | hnone
  · exact .inl ⟨c, hc, hk, _, hlookup, written_undated _ _ _ _⟩
  · exact .inr hnone

end View

/-- The sweep before has not got further than to create the record. -/
theorem view_exact_spoke :
    ∃ x, ((spokeAttempts [false, false, false, true]).store 2).lookup spokeCandidate.name = some x ∧
      x.status.undated = (buildOne spokeCandidate []).status.stored := by
  have hok : ((spokeAttempts [false, false, false, true]).attempt 1).Succeeds
      ((spokeAttempts [false, false, false, true]).store 1) := rfl
  rcases (spokeAttempts [false, false, false, true]).view_exact rfl hok spokeCandidate.name with
    ⟨c, hc, _, h⟩ | ⟨hnone, _⟩
  · cases List.mem_singleton.1 hc
    exact h
  · exact absurd rfl (hnone spokeCandidate (.head _))

section Dates

variable (r : Attempts F)

structure Attempts.Dates (n : Nat) (x : Record) : Prop where
  first : ∀ t, x.status.firstSeen = some t → ∃ i j, i ≤ j ∧ j < n ∧
    t = (r.attempt i).stamp.truncate ∧
    x.status.lastChange = some (r.attempt j).stamp.truncate
  last : ∀ t, x.status.lastChange = some t → ∃ j < n, t = (r.attempt j).stamp.truncate

variable {r}

omit [Float64 F] in
theorem Attempts.Dates.mono (h : r.Dates n x) (hnm : n ≤ m) : r.Dates m x where
  first t ht := by
    obtain ⟨i, j, hij, hj, h⟩ := h.first t ht
    exact ⟨i, j, hij, hj.trans_le hnm, h⟩
  last t ht := by
    obtain ⟨j, hj, h⟩ := h.last t ht
    exact ⟨j, hj.trans_le hnm, h⟩

omit [Float64 F] in
theorem Attempts.dates_empty (n : Nat) (labels : List (String × String)) :
    r.Dates n ⟨labels, .empty⟩ where
  first t ht := by cases ht
  last t ht := by cases ht

omit [Float64 F] in
theorem Attempts.dates_created (b : AdvertisedBackend) :
    r.Dates (n + 1) (written (r.attempt n).stamp b none) where
  first t ht := by
    cases ht
    exact ⟨n, n, le_rfl, n.lt_succ_self, rfl, rfl⟩
  last t ht := by
    cases ht
    exact ⟨n, n.lt_succ_self, rfl⟩

omit [Float64 F] in
theorem Attempts.Dates.updated (h : r.Dates (n + 1) x) (b : AdvertisedBackend) :
    r.Dates (n + 1) (written (r.attempt n).stamp b (some x)) where
  first t ht := by
    rw [written_firstSeen] at ht
    obtain ⟨u, hu, rfl⟩ := Option.map_eq_some_iff.1 ht
    obtain ⟨i, j, hij, hj, rfl, hchange⟩ := h.first u hu
    rw [written_lastChange]
    split
    · exact ⟨i, n, hij.trans (Nat.le_of_lt_succ hj), n.lt_succ_self, Time.truncate_truncate _, rfl⟩
    · refine ⟨i, j, hij, hj, Time.truncate_truncate _, ?_⟩
      rw [hchange, Option.map_some, Time.truncate_truncate]
  last t ht := by
    rw [written_lastChange] at ht
    split at ht
    · cases ht
      exact ⟨n, n.lt_succ_self, rfl⟩
    · obtain ⟨u, hu, rfl⟩ := Option.map_eq_some_iff.1 ht
      obtain ⟨j, hj, rfl⟩ := h.last u hu
      exact ⟨j, hj, Time.truncate_truncate _⟩

omit [Float64 F] in
theorem Attempts.dates_written (b : AdvertisedBackend) {o : Option Record}
    (h : ∀ x, o = some x → r.Dates (n + 1) x) :
    r.Dates (n + 1) (written (r.attempt n).stamp b o) := by
  cases o with
  | none => exact Attempts.dates_created b
  | some x => exact (h x rfl).updated b

theorem Attempts.dates (hstart : r.start = ∅) (n : Nat) :
    ∀ k x, (r.store n).lookup k = some x → r.Dates n x := by
  induction n with
  | zero =>
    intro k x hx
    rw [Attempts.store, hstart, AList.lookup_empty] at hx
    cases hx
  | succ n ih =>
    apply (r.attempt n).leaves_inv
      (I := fun s => ∀ k x, s.lookup k = some x → r.Dates (n + 1) x)
      (J := fun s => ∀ k x, s.lookup k = some x → r.Dates (n + 1) x)
    · exact fun k x hx => (ih k x hx).mono n.le_succ
    · exact fun _ h => h
    · intro b s hs k x hx
      rw [lookup_applied] at hx
      split at hx
      · cases hx
        exact Attempts.dates_written b (hs k)
      · exact hs k x hx
    · intro b s hs hnone k x hx
      by_cases hk : k = b.name
      · subst hk
        rw [bared, AList.lookup_insert] at hx
        cases hx
        exact Attempts.dates_empty _ _
      · rw [bared, AList.lookup_insert_ne hk] at hx
        exact hs k x hx
    · exact fun name s hs k x hx => hs k x (lookup_of_erase hx)

/-- However sweeps fail, the dates of a record are those of sweeps that had been: the one it was
first seen in, if it says so, not after the one it last changed in. -/
theorem Attempts.dates_ordered (r : Attempts F) (hstart : r.start = ∅)
    (hx : (r.store n).lookup k = some x) :
    (∀ t, x.status.firstSeen = some t → ∃ i j, i ≤ j ∧ j < n ∧
      t = (r.attempt i).stamp.truncate ∧
      x.status.lastChange = some (r.attempt j).stamp.truncate) ∧
    ∀ t, x.status.lastChange = some t → ∃ j < n, t = (r.attempt j).stamp.truncate :=
  ⟨(r.dates hstart n k x hx).first, (r.dates hstart n k x hx).last⟩

end Dates

/-- The backend starts to drain after the first sweep, and the second one fails to say so. -/
def drainedAttempts : Attempts Rat where
  start := ∅
  dated := (spokeAttempts []).dated
  attempt n := ⟨clock n, .ok [{ spokeCandidate with drain := n ≠ 0 }], [],
    if n = 1 then [false, false, true] else []⟩

theorem dates_ordered_drained : ∃ x,
    ¬ (drainedAttempts.attempt 1).Succeeds (drainedAttempts.store 1) ∧
      (drainedAttempts.store 3).lookup "10-1-0-0-24-spoke" = some x ∧
      x.status.firstSeen = some (clock 0).truncate ∧
      ∃ i j, i ≤ j ∧ j < 3 ∧ (clock 0).truncate = (drainedAttempts.attempt i).stamp.truncate ∧
        x.status.lastChange = some (drainedAttempts.attempt j).stamp.truncate := by
  have hseen : ((drainedAttempts.store 3).lookup "10-1-0-0-24-spoke").map
      (·.status.firstSeen) = some (some (clock 0).truncate) := by
    decide +kernel
  obtain ⟨x, hx, hfirst⟩ := Option.map_eq_some_iff.1 hseen
  exact ⟨x, nofun, hx, hfirst, (drainedAttempts.dates_ordered rfl hx).1 _ hfirst⟩

end Kreg
