import Mathlib.Algebra.Group.Nat.Defs
import Mathlib.Data.Int.Order.Basic
import Mathlib.Tactic.Common

namespace Kreg
set_option autoImplicit true

/-- A `time.Time`, in nanoseconds since Go's zero time. -/
structure Time where
  ns : Int
deriving DecidableEq, Repr

def Time.isZero (t : Time) : Bool :=
  t.ns == 0

def second : Int := 1000000000

/-- The instant as RFC 3339 renders it, which is how `metav1.Time` is stored. -/
def Time.truncate (t : Time) : Time :=
  ⟨t.ns / second * second⟩

/-- A whole second other than the zero time: what one wall-clock tick looks like once stored. -/
def Time.Whole (t : Time) : Prop :=
  t.ns ≠ 0 ∧ second ∣ t.ns

instance (t : Time) : Decidable t.Whole :=
  inferInstanceAs (Decidable (_ ∧ _))

theorem Time.Whole.truncate_eq {t : Time} (h : t.Whole) : t.truncate = t := by
  cases t with
  | mk ns => rw [Time.truncate, Int.ediv_mul_cancel h.2]

theorem Time.Whole.isZero_eq {t : Time} (h : t.Whole) : t.isZero = false := by
  simpa only [Time.isZero, beq_eq_false_iff_ne] using h.1

/-- The instant is not within the second that RFC 3339 renders as Go's zero time. -/
def Time.Storable (t : Time) : Prop :=
  t.truncate.isZero = false

theorem Time.Whole.storable {t : Time} (h : t.Whole) : t.Storable := by
  rw [Time.Storable, h.truncate_eq]
  exact h.isZero_eq

theorem Time.truncate_truncate (t : Time) : t.truncate.truncate = t.truncate := by
  rw [Time.truncate, Time.truncate, Int.mul_ediv_cancel _ (by decide)]

theorem Time.Storable.truncate {t : Time} (h : t.Storable) : t.truncate.Storable := by
  rw [Time.Storable, Time.truncate_truncate]
  exact h

theorem Time.Storable.isZero_eq {t : Time} (h : t.Storable) : t.isZero = false := by
  rw [Time.isZero, beq_eq_false_iff_ne]
  intro hz
  rw [Time.Storable, Time.truncate, hz] at h
  cases h

theorem Time.truncate_le (t : Time) : t.truncate.ns ≤ t.ns :=
  Int.ediv_mul_le _ (by decide)

theorem Time.truncate_mono {t u : Time} (h : t.ns ≤ u.ns) : t.truncate.ns ≤ u.truncate.ns :=
  Int.mul_le_mul_of_nonneg_right (Int.ediv_le_ediv (by decide) h) (by decide)

theorem Time.Storable.whole_truncate {t : Time} (h : t.Storable) : t.truncate.Whole := by
  constructor
  · intro hz
    rw [Time.Storable, Time.isZero, hz] at h
    cases h
  · exact Int.dvd_mul_left _ _

def minDuration : Int := -9223372036854775808

def maxDuration : Int := 9223372036854775807

/-- A `time.Duration`: a signed 64-bit count of nanoseconds. -/
structure Duration where
  ns : Int
  lo : minDuration ≤ ns
  hi : ns ≤ maxDuration
deriving DecidableEq

def Duration.saturate (n : Int) : Duration where
  ns := if n < minDuration then minDuration else if maxDuration < n then maxDuration else n
  lo := by simp only [minDuration, maxDuration]; omega
  hi := by simp only [minDuration, maxDuration]; omega

def Duration.zero : Duration := Duration.saturate 0

def Duration.seconds (n : Int) : Duration := Duration.saturate (n * second)

/-- `Time.Sub` saturates instead of overflowing. -/
def Time.sub (t u : Time) : Duration :=
  Duration.saturate (t.ns - u.ns)

/-- Saturation does not change how a span between ordered instants compares with a duration. -/
theorem Time.sub_lt_iff {t u : Time} (h : u.ns ≤ t.ns) (d : Duration) :
    (t.sub u).ns < d.ns ↔ t.ns - u.ns < d.ns := by
  have hlo := d.lo
  have hhi := d.hi
  simp only [Time.sub, Duration.saturate, minDuration, maxDuration] at *
  omega

theorem Time.le_sub_iff {t u : Time} (h : u.ns ≤ t.ns) (d : Duration) :
    d.ns ≤ (t.sub u).ns ↔ d.ns ≤ t.ns - u.ns := by
  have hlt := Time.sub_lt_iff h d
  omega

theorem Time.sub_nonneg {t u : Time} (h : u.ns ≤ t.ns) : 0 ≤ (t.sub u).ns := by
  simp only [Time.sub, Duration.saturate, minDuration, maxDuration]
  omega

theorem Time.sub_le {t u : Time} (h : u.ns ≤ t.ns) : (t.sub u).ns ≤ t.ns - u.ns := by
  simp only [Time.sub, Duration.saturate, minDuration, maxDuration]
  omega

theorem Time.sub_le_sub {t t' : Time} (h : t.ns ≤ t'.ns) (u : Time) :
    (t.sub u).ns ≤ (t'.sub u).ns := by
  simp only [Time.sub, Duration.saturate, minDuration, maxDuration]
  omega

theorem Time.sub_pos {t u : Time} (h : u.ns < t.ns) : 0 < (t.sub u).ns := by
  simp only [Time.sub, Duration.saturate, minDuration, maxDuration]
  omega

theorem Time.sub_eq {t u : Time} (h : u.ns ≤ t.ns) (hlt : (t.sub u).ns < maxDuration) :
    (t.sub u).ns = t.ns - u.ns := by
  simp only [Time.sub, Duration.saturate, minDuration, maxDuration] at hlt ⊢
  omega

theorem Time.sub_anti {t u u' : Time} (h : u.ns ≤ u'.ns) : (t.sub u').ns ≤ (t.sub u).ns := by
  simp only [Time.sub, Duration.saturate, minDuration, maxDuration]
  omega

theorem Time.sub_self (t : Time) : (t.sub t).ns = 0 := by
  rw [Time.sub, Int.sub_self]
  rfl

/-- `Duration.Round`: to a multiple of `m`, halfway cases away from zero. -/
def Duration.round (d m : Duration) : Duration :=
  if m.ns ≤ 0 then d
  else
    let r := d.ns.tmod m.ns
    if d.ns < 0 then
      if -r + -r < m.ns then Duration.saturate (d.ns - r) else Duration.saturate (d.ns - m.ns - r)
    else if r + r < m.ns then Duration.saturate (d.ns - r)
    else Duration.saturate (d.ns + m.ns - r)

def digits (v width : Nat) : List Char :=
  (List.range width).map fun i => Nat.digitChar (v / 10 ^ (width - 1 - i) % 10)

/-- `fmtFrac`: the fraction `v / 10^prec` without trailing zeros, or nothing at all. -/
def fmtFrac (v prec : Nat) : String :=
  match ((digits (v % 10 ^ prec) prec).reverse.dropWhile (· == '0')).reverse with
  | [] => ""
  | ds => "." ++ String.ofList ds

/-- `Duration.String` on the magnitude of a duration. -/
def fmtMagnitude (u : Nat) : String :=
  if u = 0 then "0s"
  else if u < 1000 then toString u ++ "ns"
  else if u < 1000000 then toString (u / 1000) ++ fmtFrac u 3 ++ "µs"
  else if u < 1000000000 then toString (u / 1000000) ++ fmtFrac u 6 ++ "ms"
  else
    let secs := u / 1000000000
    let tail := toString (secs % 60) ++ fmtFrac u 9 ++ "s"
    let mins := secs / 60
    if mins = 0 then tail
    else
      let tail := toString (mins % 60) ++ "m" ++ tail
      let hours := mins / 60
      if hours = 0 then tail else toString hours ++ "h" ++ tail

def Duration.string (d : Duration) : String :=
  if d.ns < 0 then "-" ++ fmtMagnitude d.ns.natAbs else fmtMagnitude d.ns.natAbs

example : (Duration.seconds 5430).string = "1h30m30s" := by decide

end Kreg
