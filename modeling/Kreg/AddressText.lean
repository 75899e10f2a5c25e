import Kreg.GoNet
import Mathlib.Data.Nat.Digits.Defs
import Mathlib.Data.List.TakeWhile

namespace Kreg
set_option autoImplicit true

/-- `net.ParseIP`. -/
def parseIP (s : String) : Option IP :=
  match parseAddr s.toList with
  | none => none
  | some (.inl a) => some (.v4 a)
  | some (.inr a) => some (if isMapped a then .v4 (a.truncate 32) else .v6 a)

/-- An IPv4-mapped address is not kept as IPv6. -/
def IP.Unmapped : IP → Prop
  | .v4 _ => True
  | .v6 a => isMapped a = false

section Fields

theorem splitFields_succ (width count n : Nat) :
    splitFields width (count + 1) n =
      n / 2 ^ (width * count) % 2 ^ width :: splitFields width count n := by
  rw [splitFields, List.range_succ_eq_map, List.map_cons, List.map_map]
  congr 1
  apply List.map_congr_left
  intro i _
  have hi : count + 1 - 1 - (i + 1) = count - 1 - i := by omega
  rw [Function.comp_apply, Nat.succ_eq_add_one, hi]

theorem lt_of_mem_splitFields (h : f ∈ splitFields width count n) : f < 2 ^ width := by
  obtain ⟨i, _, rfl⟩ := List.mem_map.1 h
  exact Nat.mod_lt _ (Nat.two_pow_pos width)

theorem length_splitFields (width count n : Nat) : (splitFields width count n).length = count := by
  rw [splitFields, List.length_map, List.length_range]

theorem foldl_fields (width : Nat) (fields : List Nat) (n : Nat) :
    fields.foldl (fun n f => n * 2 ^ width + f) n =
      n * 2 ^ (width * fields.length) + joinFields width fields := by
  induction fields generalizing n with
  | nil => rw [List.foldl_nil, List.length_nil, Nat.mul_zero, Nat.pow_zero, Nat.mul_one]; rfl
  | cons f fields ih =>
    rw [joinFields, List.foldl_cons, List.foldl_cons, ih, ih (0 * 2 ^ width + f), List.length_cons,
      Nat.mul_succ, Nat.pow_add]
    ring

theorem joinFields_cons (width f : Nat) (fields : List Nat) :
    joinFields width (f :: fields) =
      f * 2 ^ (width * fields.length) + joinFields width fields := by
  rw [joinFields, List.foldl_cons, foldl_fields, Nat.zero_mul, Nat.zero_add]

theorem joinFields_splitFields (width count n : Nat) :
    joinFields width (splitFields width count n) = n % 2 ^ (width * count) := by
  induction count with
  | zero => rw [Nat.mul_zero, Nat.pow_zero, Nat.mod_one]; rfl
  | succ count ih =>
    rw [splitFields_succ, joinFields_cons, length_splitFields, ih, Nat.mul_succ, Nat.pow_add,
      Nat.mod_mul, Nat.mul_comm, Nat.add_comm]

end Fields

section Digits

theorem isDigit_digitChar (h : d < 10) :
    (Nat.digitChar d).isDigit = true ∧ digitValue (Nat.digitChar d) = d := by
  revert d
  decide

theorem hexValue_digitChar (h : d < 16) : hexValue (Nat.digitChar d) = some d := by
  revert d
  decide

theorem hexValue_of_mem_toDigits (h : c ∈ Nat.toDigits 16 n) : (hexValue c).isSome = true := by
  induction n using Nat.strongRecOn generalizing c with
  | ind n ih =>
    rcases Nat.lt_or_ge n 16 with hn | hn
    · rw [Nat.toDigits_of_lt_base hn, List.mem_singleton] at h
      rw [h, hexValue_digitChar hn]
      rfl
    · rw [Nat.toDigits_of_base_le (by decide) hn, List.mem_append, List.mem_singleton] at h
      rcases h with h | h
      · exact ih (n / 16) (by omega) h
      · rw [h, hexValue_digitChar (n.mod_lt (by decide))]
        rfl

theorem parseIPv4Fields_digits (hn : n < 256) (s : List Char) (fields : List Nat) :
    parseIPv4Fields (Nat.toDigits 10 n ++ s) 0 0 fields =
      parseIPv4Fields s n (Nat.toDigits 10 n).length fields := by
  induction n using Nat.strongRecOn generalizing s with
  | ind n ih =>
    rcases Nat.lt_or_ge n 10 with h | h
    · obtain ⟨hdigit, hvalue⟩ := isDigit_digitChar h
      have hle : ¬ 255 < n := by omega
      rw [Nat.toDigits_of_lt_base h, List.singleton_append, parseIPv4Fields, if_pos hdigit,
        if_neg (fun hz => Nat.zero_ne_one hz.1), hvalue, Nat.zero_mul, Nat.zero_add, if_neg hle]
      rfl
    · obtain ⟨hdigit, hvalue⟩ := isDigit_digitChar (n.mod_lt (show 10 > 0 by decide))
      have hle : ¬ 255 < n / 10 * 10 + n % 10 := by omega
      have hne : ¬ ((Nat.toDigits 10 (n / 10)).length = 1 ∧ n / 10 = 0) := by omega
      rw [Nat.toDigits_of_base_le (by decide) h, List.append_assoc, ih (n / 10) (by omega)
        (by omega), List.singleton_append, parseIPv4Fields, if_pos hdigit, if_neg hne, hvalue,
        if_neg hle, Nat.div_add_mod' n 10, List.length_append]
      rfl

theorem scanHex_digits (hn : n < 65536) (s : List Char) :
    scanHex (Nat.toDigits 16 n ++ s) 0 0 = scanHex s n (Nat.toDigits 16 n).length := by
  induction n using Nat.strongRecOn generalizing s with
  | ind n ih =>
    rcases Nat.lt_or_ge n 16 with h | h
    · rw [Nat.toDigits_of_lt_base h, List.singleton_append, scanHex, hexValue_digitChar h]
      simp only [Nat.zero_mul, Nat.zero_add, if_neg (show ¬ 3 < 0 by decide)]
      rfl
    · have hshort : (Nat.toDigits 16 (n / 16)).length ≤ 3 :=
        (Nat.length_toDigits_le_iff (by decide) (by decide)).2 (by omega)
      rw [Nat.toDigits_of_base_le (by decide) h, List.append_assoc, ih (n / 16) (by omega)
        (by omega), List.singleton_append, scanHex, hexValue_digitChar (n.mod_lt (by decide))]
      simp only [if_neg (Nat.not_lt.2 hshort), Nat.div_add_mod' n 16, List.length_append]
      rfl

theorem mem_intercalate_singleton {ls : List (List α)} (h : c ∈ [sep].intercalate ls) :
    c = sep ∨ ∃ l ∈ ls, c ∈ l := by
  induction ls with
  | nil => cases h
  | cons l ls ih =>
    cases ls with
    | nil =>
      rw [List.intercalate_singleton] at h
      exact .inr ⟨l, .head _, h⟩
    | cons l' ls =>
      rw [List.intercalate_cons_cons, List.mem_append, List.mem_append, List.mem_singleton] at h
      rcases h with (h | h) | h
      · exact .inr ⟨l, .head _, h⟩
      · exact .inl h
      · apply (ih h).imp id
        rintro ⟨l'', hl, hc⟩
        exact ⟨l'', .tail _ hl, hc⟩

end Digits

section Text

def fieldText (sep : Char) (base : Nat) (fields : List Nat) : List Char :=
  [sep].intercalate (fields.map (Nat.toDigits base))

variable {sep : Char} {base f g : Nat} {fs : List Nat}

theorem fieldText_singleton (sep : Char) (base f : Nat) :
    fieldText sep base [f] = Nat.toDigits base f :=
  List.intercalate_singleton

theorem fieldText_cons_cons (sep : Char) (base f g : Nat) (fs : List Nat) :
    fieldText sep base (f :: g :: fs) =
      Nat.toDigits base f ++ sep :: fieldText sep base (g :: fs) := by
  rw [fieldText, List.map_cons, List.map_cons, List.intercalate_cons_cons, List.append_assoc]
  rfl

theorem fieldText_eq_cons (sep : Char) (base f : Nat) (fs : List Nat) :
    ∃ c ∈ Nat.toDigits base f, ∃ s, fieldText sep base (f :: fs) = c :: s := by
  cases hd : Nat.toDigits base f with
  | nil => exact absurd hd Nat.toDigits_ne_nil
  | cons c s =>
    refine ⟨c, .head _, ?_⟩
    cases fs with
    | nil =>
      rw [fieldText_singleton, hd]
      exact ⟨s, rfl⟩
    | cons g fs =>
      rw [fieldText_cons_cons, hd]
      exact ⟨_, rfl⟩

theorem mem_fieldText {fields : List Nat} (h : c ∈ fieldText sep base fields) :
    c = sep ∨ ∃ f ∈ fields, c ∈ Nat.toDigits base f := by
  apply (mem_intercalate_singleton h).imp id
  rintro ⟨l, hl, hc⟩
  obtain ⟨f, hf, rfl⟩ := List.mem_map.1 hl
  exact ⟨f, hf, hc⟩

theorem find?_eq_some_of_forall {s : List α} (hmem : a ∈ s) (ha : p a = true)
    (hs : ∀ c ∈ s, p c = true → c = a) : s.find? p = some a := by
  cases hfind : s.find? p with
  | none => exact absurd ha (List.find?_eq_none.1 hfind a hmem)
  | some c => rw [hs c (List.mem_of_find?_eq_some hfind) (List.find?_some hfind)]

end Text

section Quad

variable {f : Nat} {fs fields : List Nat}

theorem IP.toList_string_v4 (a : BitVec 32) :
    (IP.string (.v4 a)).toList = fieldText '.' 10 (splitFields 8 4 a.toNat) := by
  rw [IP.string, String.toList_intercalate, List.map_map, fieldText]
  congr 1
  apply List.map_congr_left
  intro f _
  rw [Function.comp_apply, Nat.toString_eq_repr, Nat.toList_repr]

theorem parseIPv4Fields_fieldText (hf : ∀ g ∈ f :: fs, g < 256)
    (hlen : fields.length + fs.length = 3) :
    parseIPv4Fields (fieldText '.' 10 (f :: fs)) 0 0 fields = some (fields ++ f :: fs) := by
  induction fs generalizing f fields with
  | nil =>
    have hfull : ¬ fields.length < 3 := by
      rw [List.length_nil] at hlen
      omega
    rw [fieldText_singleton, ← List.append_nil (Nat.toDigits 10 f),
      parseIPv4Fields_digits (hf f (.head _)), parseIPv4Fields, if_neg hfull]
  | cons g fs ih =>
    have hdigits : ¬ ((Nat.toDigits 10 f).length = 0 ∨ fieldText '.' 10 (g :: fs) = []) := by
      rintro (h | h)
      · exact Nat.toDigits_ne_nil (List.length_eq_zero_iff.1 h)
      · obtain ⟨c, _, s, hs⟩ := fieldText_eq_cons '.' 10 g fs
        cases h.symm.trans hs
    rw [List.length_cons] at hlen
    have hroom : fields.length ≠ 3 := by omega
    have hrest : (fields ++ [f]).length + fs.length = 3 := by
      rw [List.length_append, List.length_singleton]
      omega
    rw [fieldText_cons_cons, parseIPv4Fields_digits (hf f (.head _)), parseIPv4Fields,
      if_neg (by decide), if_pos rfl, if_neg hdigits, if_neg hroom,
      ih (fun g hg => hf g (.tail _ hg)) hrest, List.append_assoc]
    rfl

theorem parseAddr_of_dot (hs : ∀ c ∈ s, c.isDigit = true ∨ c = '.') (hdot : '.' ∈ s) :
    parseAddr s =
      (parseIPv4Fields s 0 0 []).map fun f => .inl (BitVec.ofNat 32 (joinFields 8 f)) := by
  have hfind : (s.find? fun c => c == '.' || c == ':' || c == '%') = some '.' := by
    apply find?_eq_some_of_forall hdot rfl
    intro c hc hsep
    apply (hs c hc).resolve_left
    intro hdigit
    simp only [Bool.or_eq_true, beq_iff_eq] at hsep
    rcases hsep with (rfl | rfl) | rfl <;> cases hdigit
  rw [parseAddr, hfind]
  rfl

theorem parseAddr_string_v4 (a : BitVec 32) :
    parseAddr (IP.string (.v4 a)).toList = some (.inl a) := by
  rw [IP.toList_string_v4, parseAddr_of_dot]
  · rw [splitFields_succ, parseIPv4Fields_fieldText, ← splitFields_succ, Option.map_some,
      List.nil_append, joinFields_splitFields, Nat.mod_eq_of_lt a.isLt, BitVec.ofNat_toNat,
      BitVec.setWidth_eq]
    · rw [← splitFields_succ]
      exact fun f hf => lt_of_mem_splitFields hf
    · rw [length_splitFields]
      rfl
  · intro c hc
    rcases mem_fieldText hc with h | ⟨f, _, h⟩
    · exact .inr h
    · exact .inl (Nat.isDigit_of_mem_toDigits (by decide) (by decide) h)
  · rw [splitFields_succ, splitFields_succ, fieldText_cons_cons]
    exact List.mem_append_right _ (.head _)

end Quad

section Groups

variable {g room : Nat} {gs groups : List Nat} {ellipsis : Option Nat}

theorem toList_fmtGroups (gs : List Nat) : (fmtGroups gs).toList = fieldText ':' 16 gs := by
  rw [fmtGroups, String.toList_intercalate, List.map_map, fieldText]
  congr 1
  apply List.map_congr_left
  intro g _
  rw [Function.comp_apply, String.toList_ofList]

theorem ne_colon_of_hexValue (h : (hexValue c).isSome = true) : c ≠ ':' := by
  rintro rfl
  cases h

theorem parseIPv6Groups_last (hg : g < 65536) (room : Nat) (groups : List Nat)
    (ellipsis : Option Nat) :
    parseIPv6Groups (room + 1) (Nat.toDigits 16 g) groups ellipsis =
      some (groups ++ [g], ellipsis, []) := by
  have hscan := scanHex_digits hg []
  rw [List.append_nil, scanHex] at hscan
  have hlen : (Nat.toDigits 16 g).length ≠ 0 :=
    fun h => Nat.toDigits_ne_nil (List.length_eq_zero_iff.1 h)
  rw [parseIPv6Groups, hscan]
  simp only [if_neg hlen]

theorem scanHex_colon (hg : g < 65536) (s : List Char) :
    scanHex (Nat.toDigits 16 g ++ ':' :: s) 0 0 =
      some (g, (Nat.toDigits 16 g).length, ':' :: s) := by
  rw [scanHex_digits hg]
  rfl

theorem parseIPv6Groups_colon (hg : g < 65536) (hc : c ≠ ':') (room : Nat) (groups : List Nat)
    (ellipsis : Option Nat) :
    parseIPv6Groups (room + 1) (Nat.toDigits 16 g ++ ':' :: c :: s) groups ellipsis =
      parseIPv6Groups room (c :: s) (groups ++ [g]) ellipsis := by
  have hlen : (Nat.toDigits 16 g).length ≠ 0 :=
    fun h => Nat.toDigits_ne_nil (List.length_eq_zero_iff.1 h)
  rw [parseIPv6Groups, scanHex_colon hg]
  simp only [if_neg hlen]
  split
  · next h => cases h
  · next h => cases h
  · next h => cases h
  · next h =>
    cases h
    exact absurd rfl hc
  · next h =>
    cases h
    rfl
  · next h => exact absurd rfl (h (c :: s))

theorem parseIPv6Groups_ellipsis (hg : g < 65536) (room : Nat) (groups : List Nat) :
    parseIPv6Groups (room + 1) (Nat.toDigits 16 g ++ ':' :: ':' :: s) groups none =
      if s = [] then some (groups ++ [g], some (groups ++ [g]).length, [])
      else parseIPv6Groups room s (groups ++ [g]) (some (groups ++ [g]).length) := by
  have hlen : (Nat.toDigits 16 g).length ≠ 0 :=
    fun h => Nat.toDigits_ne_nil (List.length_eq_zero_iff.1 h)
  rw [parseIPv6Groups, scanHex_colon hg]
  simp only [if_neg hlen]
  rfl

theorem fieldText_hex_eq_cons (g : Nat) (gs : List Nat) :
    ∃ c s, c ≠ ':' ∧ fieldText ':' 16 (g :: gs) = c :: s := by
  obtain ⟨c, hc, s, hs⟩ := fieldText_eq_cons ':' 16 g gs
  exact ⟨c, s, ne_colon_of_hexValue (hexValue_of_mem_toDigits hc), hs⟩

theorem parseIPv6Groups_fieldText (hg : ∀ x ∈ g :: gs, x < 65536) (hroom : gs.length < room)
    (groups : List Nat) (ellipsis : Option Nat) :
    parseIPv6Groups room (fieldText ':' 16 (g :: gs)) groups ellipsis =
      some (groups ++ g :: gs, ellipsis, []) := by
  induction gs generalizing g room groups with
  | nil =>
    obtain ⟨room, rfl⟩ := Nat.exists_eq_succ_of_ne_zero (Nat.ne_zero_of_lt hroom)
    rw [fieldText_singleton]
    exact parseIPv6Groups_last (hg g (.head _)) room groups ellipsis
  | cons g' gs ih =>
    obtain ⟨room, rfl⟩ := Nat.exists_eq_succ_of_ne_zero (Nat.ne_zero_of_lt hroom)
    obtain ⟨c, s, hc, hs⟩ := fieldText_hex_eq_cons g' gs
    rw [fieldText_cons_cons, hs, Nat.succ_eq_add_one, parseIPv6Groups_colon (hg g (.head _)) hc,
      ← hs, ih (fun x hx => hg x (.tail _ hx)) (Nat.lt_of_succ_lt_succ hroom), List.append_assoc]
    rfl

theorem parseIPv6Groups_fieldText_ellipsis (hg : ∀ x ∈ g :: gs, x < 65536)
    (hroom : gs.length < room) (groups : List Nat) (s : List Char) :
    parseIPv6Groups room (fieldText ':' 16 (g :: gs) ++ ':' :: ':' :: s) groups none =
      if s = [] then some (groups ++ g :: gs, some (groups ++ g :: gs).length, [])
      else parseIPv6Groups (room - (g :: gs).length) s (groups ++ g :: gs)
        (some (groups ++ g :: gs).length) := by
  induction gs generalizing g room groups with
  | nil =>
    obtain ⟨room, rfl⟩ := Nat.exists_eq_succ_of_ne_zero (Nat.ne_zero_of_lt hroom)
    rw [fieldText_singleton]
    exact parseIPv6Groups_ellipsis (hg g (.head _)) room groups
  | cons g' gs ih =>
    obtain ⟨room, rfl⟩ := Nat.exists_eq_succ_of_ne_zero (Nat.ne_zero_of_lt hroom)
    obtain ⟨c, t, hc, ht⟩ := fieldText_hex_eq_cons g' gs
    have hsplit : groups ++ [g] ++ g' :: gs = groups ++ g :: g' :: gs := by
      rw [List.append_assoc]
      rfl
    have hleft : room - (g' :: gs).length = room.succ - (g :: g' :: gs).length := by
      rw [List.length_cons, List.length_cons, List.length_cons]
      omega
    rw [fieldText_cons_cons, List.append_assoc, List.cons_append, ht, List.cons_append,
      Nat.succ_eq_add_one, parseIPv6Groups_colon (hg g (.head _)) hc, ← List.cons_append, ← ht,
      ih (fun x hx => hg x (.tail _ hx)) (Nat.lt_of_succ_lt_succ hroom), hsplit, hleft]

theorem parseIPv6_of_ne (hc : c ≠ ':')
    (h : parseIPv6Groups 8 (c :: s) [] none = some (groups, ellipsis, [])) :
    parseIPv6 (c :: s) =
      (expandGroups groups ellipsis).map fun g => BitVec.ofNat 128 (joinFields 16 g) := by
  rw [parseIPv6, h]
  · intro he
    cases he
    exact absurd rfl hc
  · intro rest he
    cases he
    exact absurd rfl hc

theorem parseIPv6_leading_ellipsis (ha : ∀ x ∈ after, x < 65536) (hlen : after.length < 8) :
    parseIPv6 (':' :: ':' :: fieldText ':' 16 after) =
      (expandGroups after (some 0)).map fun g => BitVec.ofNat 128 (joinFields 16 g) := by
  cases after with
  | nil => rfl
  | cons g gs =>
    rw [List.length_cons] at hlen
    obtain ⟨c, s, hc, hs⟩ := fieldText_hex_eq_cons g gs
    have hparse := parseIPv6Groups_fieldText ha (show gs.length < 8 by omega) [] (some 0)
    rw [hs] at hparse ⊢
    rw [parseIPv6, hparse]
    · rfl
    · exact List.cons_ne_nil c s

theorem parseIPv6_ellipsis {before after : List Nat} (hb : ∀ x ∈ before, x < 65536)
    (ha : ∀ x ∈ after, x < 65536) (hlen : before.length + after.length < 8) :
    parseIPv6 (fieldText ':' 16 before ++ ':' :: ':' :: fieldText ':' 16 after) =
      (expandGroups (before ++ after) (some before.length)).map
        fun g => BitVec.ofNat 128 (joinFields 16 g) := by
  cases before with
  | nil => exact parseIPv6_leading_ellipsis ha ((Nat.zero_add _).symm.trans_lt hlen)
  | cons g gs =>
    rw [List.length_cons] at hlen
    obtain ⟨c, s, hc, hs⟩ := fieldText_hex_eq_cons g gs
    have hparse := parseIPv6Groups_fieldText_ellipsis hb (show gs.length < 8 by omega) []
      (fieldText ':' 16 after)
    rw [hs, List.cons_append] at hparse ⊢
    apply parseIPv6_of_ne hc
    rw [hparse]
    cases after with
    | nil =>
      rw [List.append_nil]
      exact if_pos rfl
    | cons g' gs' =>
      obtain ⟨c', s', _, hs'⟩ := fieldText_hex_eq_cons g' gs'
      rw [List.length_cons] at hlen
      rw [if_neg (hs' ▸ List.cons_ne_nil c' s'), parseIPv6Groups_fieldText ha
        (by rw [List.length_cons]; omega)]
      rfl

theorem parseIPv6_full (hg : ∀ x ∈ groups, x < 65536) (hlen : groups.length = 8) :
    parseIPv6 (fieldText ':' 16 groups) = some (BitVec.ofNat 128 (joinFields 16 groups)) := by
  cases groups with
  | nil => cases hlen
  | cons g gs =>
    obtain ⟨c, s, hc, hs⟩ := fieldText_hex_eq_cons g gs
    have hroom : gs.length < 8 := hlen ▸ Nat.lt_succ_self _
    have hparse := parseIPv6Groups_fieldText hg hroom [] none
    rw [hs] at hparse
    rw [hs, parseIPv6_of_ne hc hparse, expandGroups, List.nil_append, hlen]
    rfl

end Groups

section Zeros

variable {gs : List Nat}

structure ZeroRun (gs : List Nat) (start run : Nat) : Prop where
  two_le : 2 ≤ run
  zeros : gs = gs.take start ++ List.replicate run 0 ++ gs.drop (start + run)

theorem zeroRun_of_drop (hd : gs.drop i = zeros ++ rest) (hz : ∀ b ∈ zeros, b = 0)
    (h : 2 ≤ zeros.length) : ZeroRun gs i zeros.length where
  two_le := h
  zeros := by
    rw [← List.drop_drop, hd, List.drop_left, ← List.eq_replicate_of_mem hz, List.append_assoc,
      ← hd, List.take_append_drop]

theorem longestZeros_zeroRun (h : longestZeros gs = some (start, run)) : ZeroRun gs start run := by
  rw [longestZeros] at h
  refine List.foldlRecOn (motive := fun best => ∀ start run, best = some (start, run) →
    ZeroRun gs start run) _ _ ?_ ?_ start run h
  · intro start run h
    cases h
  · intro best ih i _ start run h
    simp only at h
    split at h
    · next hrun =>
      cases h
      exact zeroRun_of_drop List.takeWhile_append_dropWhile.symm
        (fun b hb => beq_iff_eq.1 (List.mem_takeWhile_imp (p := (· == 0)) hb)) hrun.1
    · exact ih start run h

theorem ZeroRun.length (h : ZeroRun gs start run) :
    (gs.take start).length + run + (gs.drop (start + run)).length = gs.length := by
  conv_rhs => rw [h.zeros]
  rw [List.length_append, List.length_append, List.length_replicate]

theorem ZeroRun.expandGroups (h : ZeroRun gs start run) (hlen : gs.length = 8) :
    expandGroups (gs.take start ++ gs.drop (start + run)) (some (gs.take start).length) =
      some gs := by
  have htotal := h.length
  have htwo := h.two_le
  have hshort : (gs.take start ++ gs.drop (start + run)).length = 8 - run := by
    rw [List.length_append]
    omega
  have hzeros : 8 - (8 - run) = run := by omega
  have hlt : 8 - run < 8 := by omega
  rw [Kreg.expandGroups, hshort, if_pos hlt, List.take_left, List.drop_left, hzeros, ← h.zeros]

end Zeros

section RoundTrip

theorem parseAddr_of_colon (hs : ∀ c ∈ s, (hexValue c).isSome = true ∨ c = ':')
    (hcolon : ':' ∈ s) : parseAddr s = (parseIPv6 s).map .inr := by
  have hfind : (s.find? fun c => c == '.' || c == ':' || c == '%') = some ':' := by
    apply find?_eq_some_of_forall hcolon rfl
    intro c hc hsep
    apply (hs c hc).resolve_left
    intro hhex
    simp only [Bool.or_eq_true, beq_iff_eq] at hsep
    rcases hsep with (rfl | rfl) | rfl <;> cases hhex
  have hzone : '%' ∉ s := by
    intro hmem
    rcases hs '%' hmem with h | h
    · cases h
    · exact absurd h (by decide)
  rw [parseAddr, hfind]
  exact if_neg hzone

theorem mem_hexText (h : c ∈ fieldText ':' 16 gs) : (hexValue c).isSome = true ∨ c = ':' := by
  rcases mem_fieldText h with h | ⟨g, _, h⟩
  · exact .inr h
  · exact .inl (hexValue_of_mem_toDigits h)

theorem parseAddr_full (hg : ∀ x ∈ groups, x < 65536) (hlen : groups.length = 8) :
    parseAddr (fieldText ':' 16 groups) =
      some (.inr (BitVec.ofNat 128 (joinFields 16 groups))) := by
  rw [parseAddr_of_colon, parseIPv6_full hg hlen]
  · rfl
  · exact fun c hc => mem_hexText hc
  · obtain ⟨g, g', gs, rfl⟩ : ∃ g g' gs, groups = g :: g' :: gs := by
      cases groups with
      | nil => cases hlen
      | cons g gs =>
        cases gs with
        | nil => cases hlen
        | cons g' gs => exact ⟨g, g', gs, rfl⟩
    rw [fieldText_cons_cons]
    exact List.mem_append_right _ (.head _)

theorem ZeroRun.parseAddr (h : ZeroRun gs start run) (hg : ∀ x ∈ gs, x < 65536)
    (hlen : gs.length = 8) :
    parseAddr (fieldText ':' 16 (gs.take start) ++ ':' :: ':' ::
      fieldText ':' 16 (gs.drop (start + run))) =
        some (.inr (BitVec.ofNat 128 (joinFields 16 gs))) := by
  have htotal := h.length
  have htwo := h.two_le
  have hshort : (gs.take start).length + (gs.drop (start + run)).length < 8 := by omega
  rw [parseAddr_of_colon, parseIPv6_ellipsis _ _ hshort, h.expandGroups hlen]
  · rfl
  · exact fun g hmem => hg g (List.mem_of_mem_take hmem)
  · exact fun g hmem => hg g (List.mem_of_mem_drop hmem)
  · intro c hc
    rw [List.mem_append, List.mem_cons, List.mem_cons] at hc
    rcases hc with hc | hc | hc | hc
    · exact mem_hexText hc
    · exact .inr hc
    · exact .inr hc
    · exact mem_hexText hc
  · exact List.mem_append_right _ (.head _)

theorem parseAddr_string_v6 (a : BitVec 128) :
    parseAddr (IP.string (.v6 a)).toList = some (.inr a) := by
  have hlen : (splitFields 16 8 a.toNat).length = 8 := length_splitFields ..
  have hlt : ∀ g ∈ splitFields 16 8 a.toNat, g < 65536 := fun g hg => lt_of_mem_splitFields hg
  have hjoin : BitVec.ofNat 128 (joinFields 16 (splitFields 16 8 a.toNat)) = a := by
    rw [joinFields_splitFields, Nat.mod_eq_of_lt a.isLt, BitVec.ofNat_toNat, BitVec.setWidth_eq]
  rw [IP.string]
  cases hzeros : longestZeros (splitFields 16 8 a.toNat) with
  | none =>
    simp only [toList_fmtGroups]
    rw [parseAddr_full hlt hlen, hjoin]
  | some found =>
    simp only [String.toList_append, toList_fmtGroups, List.append_assoc]
    exact ((longestZeros_zeroRun hzeros).parseAddr hlt hlen).trans (by rw [hjoin])

/-- The text of an address is read back as that address. -/
theorem parseIP_string {ip : IP} (h : ip.Unmapped) : parseIP ip.string = some ip := by
  cases ip with
  | v4 a => rw [parseIP, parseAddr_string_v4]
  | v6 a =>
    rw [parseIP, parseAddr_string_v6]
    simp only [show isMapped a = false from h, Bool.false_eq_true, if_false]

theorem CIDR.ofV6_unmapped (a : BitVec 128) (n : Nat) (h : n ≤ 128) :
    (CIDR.ofV6 a n h).ip.Unmapped := by
  rw [CIDR.ofV6]
  simp only
  split
  · trivial
  · next hmapped => exact Bool.eq_false_of_not_eq_true hmapped

theorem parseCIDR_unmapped (h : parseCIDR s = .ok c) : c.ip.Unmapped := by
  rw [parseCIDR] at h
  split at h
  · cases h
  · next hchars =>
    cases h
    rw [parseCIDRChars] at hchars
    split at hchars
    · cases hchars
    · split at hchars
      · cases hchars
      · split at hchars
        · cases hchars
        · split at hchars
          · cases hchars
            trivial
          · cases hchars
      · split at hchars
        · cases hchars
        · split at hchars
          · cases hchars
            exact CIDR.ofV6_unmapped ..
          · cases hchars

end RoundTrip

end Kreg
