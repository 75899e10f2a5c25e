import Kreg.Runs

namespace Kreg
set_option autoImplicit true

/-- A backend of an attributed cluster: an IPv4 prefix and a clusterID that is not the stand-in
for a missing one. -/
structure BackendID where
  pfx : String
  clusterID : String
  ipv4 : IPv4Prefix pfx
  named : clusterID ≠ ""
  attributed : clusterID ≠ unattributedClusterID

def BackendID.key (b : BackendID) : String :=
  backendObjectName b.pfx b.clusterID

/-- Something filed with this prefix and clusterID is about `b`. -/
def BackendID.Owns (b : BackendID) (pfx clusterID : String) : Prop :=
  pfx = b.pfx ∧ clusterID = b.clusterID

theorem BackendID.ownerID_eq (b : BackendID) : ownerID b.clusterID = b.clusterID :=
  if_neg b.named

theorem BackendID.owns_of_name {b : BackendID} (hp : IPv4Prefix p)
    (h : backendObjectName p c = b.key) : b.Owns p c := by
  obtain ⟨hpfx, hid⟩ := backendObjectName_inj hp b.ipv4 h
  rw [b.ownerID_eq, ownerID] at hid
  split at hid
  · exact absurd hid.symm b.attributed
  · exact ⟨hpfx, hid⟩

theorem BackendID.key_inj {b b' : BackendID} (h : b.key = b'.key) : b = b' := by
  obtain ⟨hpfx, hid⟩ := BackendID.owns_of_name b.ipv4 h
  cases b
  cases b'
  cases hpfx
  cases hid
  rfl

section Runs

variable {F : Type} [Float64 F]

theorem Run.prior_owned (r : Run F) {b : BackendID}
    (h : ((r.tick n).prior r.cfg (r.store n)).lookup b.key = some p) :
    b.Owns p.candidate.pfx p.candidate.clusterID := by
  have hprior := Visit.prior_of_lookup h
  have hs := r.store_wellFormed n
  exact BackendID.owns_of_name (hs.prior_ipv4 hprior) (hs.prior_named hprior).1

theorem Run.emitted_owned (r : Run F) {b : BackendID} (hc : c ∈ r.emitted n)
    (h : c.name = b.key) : b.Owns c.pfx c.clusterID := by
  have hp := (r.tick n).emitted_ipv4 r.cfg (r.store_wellFormed n) c hc
  exact BackendID.owns_of_name hp h

theorem Run.record_owned (r : Run F) {b : BackendID}
    (h : (r.store (n + 1)).lookup b.key = some x) :
    b.Owns x.status.pfx x.status.clusterID := by
  obtain ⟨c, hc, hname, o, _, rfl⟩ := lookup_swept (r.store_wellFormed n).managed h
  have hown := r.emitted_owned hc hname
  cases o with
  | none => exact hown
  | some x => exact hown

end Runs

/-- Keys tell backends apart, so that nothing the damper remembers and no record written under
the key of one backend is about another one. -/
theorem backend_keys_unambiguous (F : Type) [Float64 F] :
    (∀ b b' : BackendID, b.key = b'.key → b = b') ∧
      ∀ (r : Run F) (n : Nat) (b : BackendID),
        (∀ p, ((r.tick n).prior r.cfg (r.store n)).lookup b.key = some p →
          b.Owns p.candidate.pfx p.candidate.clusterID) ∧
        (∀ c ∈ r.emitted n, c.name = b.key → b.Owns c.pfx c.clusterID) ∧
        ∀ x, (r.store (n + 1)).lookup b.key = some x →
          b.Owns x.status.pfx x.status.clusterID := by
  constructor
  · intro b b' h
    exact BackendID.key_inj h
  · intro r n b
    refine ⟨?_, ?_, ?_⟩
    · intro p hp
      exact r.prior_owned hp
    · intro c hc h
      exact r.emitted_owned hc h
    · intro x hx
      exact r.record_owned hx

end Kreg
