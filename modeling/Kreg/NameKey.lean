import Kreg.Types
import Mathlib.Data.List.Count

namespace Kreg
set_option autoImplicit true

theorem append_cons_inj_of_count [DecidableEq α] {a : α} {x y u v : List α}
    (hc : x.count a = y.count a) (h : x ++ a :: u = y ++ a :: v) : x = y ∧ u = v := by
  induction x generalizing y with
  | nil =>
    cases y with
    | nil => exact ⟨rfl, (List.cons.inj h).2⟩
    | cons b y =>
      have hb := (List.cons.inj h).1
      subst hb
      rw [List.count_nil, List.count_cons_self] at hc
      cases hc
  | cons b x ih =>
    cases y with
    | nil =>
      have hb := (List.cons.inj h).1
      subst hb
      rw [List.count_nil, List.count_cons_self] at hc
      cases hc
    | cons c y =>
      obtain ⟨hbc, ht⟩ := List.cons.inj h
      subst hbc
      rw [List.count_cons, List.count_cons, Nat.add_right_cancel_iff] at hc
      obtain ⟨hx, hu⟩ := ih hc ht
      exact ⟨congrArg (b :: ·) hx, hu⟩

def punctuation (s : List Char) : List Char :=
  s.filter fun c => !c.isDigit

/-- Four decimal numbers, a slash and a decimal mask. -/
def IPv4Prefix (s : String) : Prop :=
  punctuation s.toList = ['.', '.', '.', '/']

instance (s : String) : Decidable (IPv4Prefix s) :=
  inferInstanceAs (Decidable (_ = _))

theorem sanitizeChar_digit (h : c.isDigit = true) : sanitizeChar c = c := by
  rw [sanitizeChar, if_neg]
  rintro (rfl | rfl | rfl) <;> exact Bool.noConfusion h

theorem sanitizeChar_isDigit (c : Char) : (sanitizeChar c).isDigit = c.isDigit := by
  rw [sanitizeChar]
  split
  · next h => rcases h with rfl | rfl | rfl <;> rfl
  · rfl

/-- Sanitizing loses only which punctuation mark stood where. -/
theorem map_sanitizeChar_inj (hp : punctuation x = punctuation y)
    (h : x.map sanitizeChar = y.map sanitizeChar) : x = y := by
  induction x generalizing y with
  | nil => exact (List.map_eq_nil_iff.1 h.symm).symm
  | cons a x ih =>
    cases y with
    | nil => cases h
    | cons b y =>
      obtain ⟨hab, ht⟩ := List.cons.inj h
      have hd : a.isDigit = b.isDigit := by
        rw [← sanitizeChar_isDigit a, hab, sanitizeChar_isDigit]
      cases ha : a.isDigit with
      | true =>
        have hb := hd ▸ ha
        rw [sanitizeChar_digit ha, sanitizeChar_digit hb] at hab
        simp only [punctuation, List.filter_cons, ha, hb, Bool.not_true, Bool.false_eq_true,
          ↓reduceIte] at hp
        rw [hab, ih hp ht]
      | false =>
        have hb := hd ▸ ha
        simp only [punctuation, List.filter_cons, ha, hb, Bool.not_false, ↓reduceIte] at hp
        obtain ⟨he, hp⟩ := List.cons.inj hp
        rw [he, ih hp ht]

theorem count_dash_sanitized (s : List Char) :
    (s.map sanitizeChar).count '-' = ((punctuation s).map sanitizeChar).count '-' := by
  induction s with
  | nil => rfl
  | cons a s ih =>
    cases ha : a.isDigit with
    | true =>
      have hne : sanitizeChar a ≠ '-' := by
        rw [sanitizeChar_digit ha]
        rintro rfl
        exact Bool.noConfusion ha
      have hp : punctuation (a :: s) = punctuation s := by
        simp only [punctuation, List.filter_cons, ha, Bool.not_true, Bool.false_eq_true,
          ↓reduceIte]
      rw [List.map_cons, List.count_cons_of_ne hne, hp, ih]
    | false =>
      have hp : punctuation (a :: s) = a :: punctuation s := by
        simp only [punctuation, List.filter_cons, ha, Bool.not_false, ↓reduceIte]
      rw [hp, List.map_cons, List.map_cons, List.count_cons, List.count_cons, ih]

theorem sanitizeForName_toList (s : String) :
    (sanitizeForName s).toList = s.toList.map sanitizeChar := by
  rw [sanitizeForName, String.toList_ofList]

def ownerID (clusterID : String) : String :=
  if clusterID = "" then unattributedClusterID else clusterID

theorem backendObjectName_toList (pfx clusterID : String) :
    (backendObjectName pfx clusterID).toList =
      pfx.toList.map sanitizeChar ++ '-' :: (ownerID clusterID).toList := by
  rw [backendObjectName, String.toList_append, String.toList_append, sanitizeForName_toList,
    List.append_assoc]
  rfl

theorem backendObjectName_inj (hp : IPv4Prefix p) (hq : IPv4Prefix q)
    (h : backendObjectName p c = backendObjectName q d) : p = q ∧ ownerID c = ownerID d := by
  have hl := congrArg String.toList h
  rw [backendObjectName_toList, backendObjectName_toList] at hl
  have hpq : punctuation p.toList = punctuation q.toList := hp.trans hq.symm
  have hcount : (p.toList.map sanitizeChar).count '-' = (q.toList.map sanitizeChar).count '-' := by
    rw [count_dash_sanitized, hpq, ← count_dash_sanitized]
  obtain ⟨hx, hu⟩ := append_cons_inj_of_count hcount hl
  exact ⟨String.toList_inj.1 (map_sanitizeChar_inj hpq hx), String.toList_inj.1 hu⟩

end Kreg
