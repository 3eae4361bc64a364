import GotoCheck.FixedPoint
import Mathlib.Algebra.Order.Field.Rat
import Mathlib.Data.Int.ModEq
import Mathlib.Data.List.Basic
import Mathlib.Tactic.FieldSimp
import Mathlib.Tactic.Ring

/-! Decimal text of fixed-point numbers is exact. Each place brings the remainder one more factor of
two, so nothing is left of it after as many places as there are fraction bits, and with at most 120
of them no step goes beyond 128 bits. -/
namespace GotoCheck.FixedPoint
variable {f bound rem : Nat} {ds : List Char}

/-- The digit loop in words of 128 bits. It starts at a remainder and writes one place in each pass,
until nothing is left. -/
inductive Passes (f : Nat) : Nat → List Char → Prop
  | done : Passes f 0 []
  | next {rem : Nat} {ds : List Char} : rem ≠ 0 → rem * 10 < 2 ^ 128 → (rem * 10) >>> f < 10 →
      Passes f (rem * 10 &&& (2 ^ f - 1)) ds → Passes f rem (((rem * 10) >>> f).digitChar :: ds)

/-- The parts of a decimal text. -/
structure DecimalText where
  negative : Bool
  whole : List Char
  places : List Char

namespace DecimalText

def chars (t : DecimalText) : List Char :=
  (if t.negative then ['-'] else []) ++ t.whole ++ '.' :: t.places

/-- The number that the text denotes. -/
def value (t : DecimalText) : ℚ :=
  (if t.negative then -1 else 1) *
    (Nat.ofDigitChars 10 t.whole 0 + Nat.ofDigitChars 10 t.places 0 / 10 ^ t.places.length)

/-- Digits on both sides of the point, and no zero at either end that could be left out. -/
structure Canonical (t : DecimalText) : Prop where
  whole_ne_nil : t.whole ≠ []
  isDigit_whole : ∀ c ∈ t.whole, c.isDigit
  leading : t.whole.head? = some '0' → t.whole = ['0']
  places_ne_nil : t.places ≠ []
  isDigit_places : ∀ c ∈ t.places, c.isDigit
  trailing : t.places.getLast? = some '0' → t.places = ['0']

end DecimalText

/-! The loop. -/

theorem length_places_le (f bound rem : Nat) : (places f bound rem).length ≤ bound := by
  induction bound generalizing rem with
  | zero => exact Nat.le_refl 0
  | succ bound ih =>
    rw [places]
    split
    · exact Nat.zero_le _
    · exact Nat.succ_le_succ (ih _)

/-- A remainder that ten times itself often enough makes divisible is used up. -/
theorem passes_places (hf : f ≤ 120) (hrem : rem < 2 ^ f) (hdvd : 2 ^ f ∣ rem * 10 ^ bound) :
    Passes f rem (places f bound rem) := by
  have hpos : 0 < 2 ^ f := Nat.pow_pos (by decide)
  have hword : 2 ^ f ≤ 2 ^ 120 := Nat.pow_le_pow_right (by decide) hf
  induction bound generalizing rem with
  | zero =>
    rw [pow_zero, mul_one] at hdvd
    obtain rfl : rem = 0 := Nat.eq_zero_of_dvd_of_lt hdvd hrem
    exact .done
  | succ bound ih =>
    rw [places]
    split
    · rename_i hzero
      exact hzero ▸ .done
    · rename_i hrest
      have hmod : rem * 10 % 2 ^ f < 2 ^ f := Nat.mod_lt _ hpos
      have hdigit : rem * 10 / 2 ^ f < 10 := Nat.div_lt_of_lt_mul (by omega)
      have hnext : 2 ^ f ∣ rem * 10 % 2 ^ f * 10 ^ bound := by
        rw [pow_succ', ← mul_assoc] at hdvd
        exact (((Nat.mod_modEq _ _).mul_right _).dvd_iff dvd_rfl).mpr hdvd
      have hpass := ih hmod hnext
      rw [← Nat.and_two_pow_sub_one_eq_mod] at hpass
      rw [← Nat.shiftRight_eq_div_pow] at hdigit
      have hplaces : Passes f rem (((rem * 10) >>> f).digitChar ::
          places f bound (rem * 10 &&& (2 ^ f - 1))) := .next hrest (by omega) hdigit hpass
      rwa [Nat.and_two_pow_sub_one_eq_mod, Nat.shiftRight_eq_div_pow] at hplaces

/-- A fraction has no more places than bits: ten to the power holds as many factors of two. -/
theorem passes_fraction (hf : f ≤ 120) (hrem : rem < 2 ^ f) : Passes f rem (places f f rem) := by
  refine passes_places hf hrem (Dvd.dvd.mul_left ?_ rem)
  exact pow_dvd_pow_of_dvd (by decide : 2 ∣ 10) f

namespace Passes

theorem isDigit (h : Passes f rem ds) : ∀ c ∈ ds, c.isDigit := by
  induction h with
  | done => intro c hc; cases hc
  | next _ _ hdigit _ ih =>
    intro c hc
    rcases List.mem_cons.mp hc with rfl | hc
    · rw [Nat.isDigit_digitChar]
      exact decide_eq_true hdigit
    · exact ih c hc

/-- What the loop writes is the fraction that it starts from. -/
theorem value (h : Passes f rem ds) :
    Nat.ofDigitChars 10 ds 0 * 2 ^ f = rem * 10 ^ ds.length := by
  induction h with
  | done => simp
  | @next rem ds _ _ hdigit _ ih =>
    -- a place and the remainder behind it make up ten times the remainder before
    have hsplit := Nat.div_add_mod (rem * 10) (2 ^ f)
    rw [Nat.ofDigitChars_cons_digitChar_of_lt_ten hdigit, Nat.ofDigitChars_eq_ofDigitChars_zero,
      Nat.mul_zero, Nat.zero_add, Nat.add_mul, ih, Nat.and_two_pow_sub_one_eq_mod,
      Nat.shiftRight_eq_div_pow, List.length_cons, pow_succ']
    calc 10 ^ ds.length * (rem * 10 / 2 ^ f) * 2 ^ f + rem * 10 % 2 ^ f * 10 ^ ds.length
        = (2 ^ f * (rem * 10 / 2 ^ f) + rem * 10 % 2 ^ f) * 10 ^ ds.length := by ring
      _ = rem * 10 * 10 ^ ds.length := by rw [hsplit]
      _ = rem * (10 * 10 ^ ds.length) := by ring

theorem eq_nil_iff (h : Passes f rem ds) : ds = [] ↔ rem = 0 := by
  cases h with
  | done => simp
  | next hrest => simp [hrest]

/-- The last place is what the rest of the remainder comes to, so it is not zero. -/
theorem getLast?_ne (h : Passes f rem ds) : ds.getLast? ≠ some '0' := by
  induction h with
  | done => simp
  | @next rem ds hrest _ hdigit hlater ih =>
    cases ds with
    | cons c ds => rwa [List.getLast?_cons_cons]
    | nil =>
      have hused : rem * 10 &&& (2 ^ f - 1) = 0 := hlater.eq_nil_iff.mp rfl
      rw [Nat.and_two_pow_sub_one_eq_mod] at hused
      have hsplit := Nat.div_add_mod (rem * 10) (2 ^ f)
      intro hlast
      rw [List.getLast?_singleton, Option.some.injEq, Nat.digitChar_eq_zero,
        Nat.shiftRight_eq_div_pow] at hlast
      rw [hlast, hused] at hsplit
      omega

end Passes

/-! The text. -/

theorem head?_toDigits {n : Nat} (h : (Nat.toDigits 10 n).head? = some '0') : n = 0 := by
  -- along the division by ten that makes the digits
  induction n using Nat.strongRecOn with
  | ind n ih =>
    by_cases hn : n < 10
    · rw [Nat.toDigits_of_lt_base hn, List.head?_cons, Option.some.injEq] at h
      exact Nat.digitChar_eq_zero.mp h
    · rw [Nat.toDigits_of_base_le (by decide) (by omega),
        List.head?_append_of_ne_nil _ Nat.toDigits_ne_nil] at h
      have := ih (n / 10) (by omega) h
      omega

/-- The parts of the text of `bits / 2 ^ f`. -/
def parts (bits : Int) (f : Nat) : DecimalText where
  negative := decide (bits < 0)
  whole := Nat.toDigits 10 (bits.natAbs / 2 ^ f)
  places := fraction f (bits.natAbs % 2 ^ f)

theorem chars_parts (bits : Int) (f : Nat) : (parts bits f).chars = decimalChars bits f := by
  simp [DecimalText.chars, parts, decimalChars]

theorem passes_parts (hf : f ≤ 120) (bits : Int) :
    Passes f (bits.natAbs % 2 ^ f) (places f f (bits.natAbs % 2 ^ f)) :=
  passes_fraction hf (Nat.mod_lt _ (Nat.pow_pos (by decide)))

theorem fraction_eq (h : Passes f rem (places f f rem)) :
    fraction f rem = if places f f rem = [] then ['0'] else places f f rem := by
  simp only [fraction, h.eq_nil_iff]

/-- Places end with one that is not zero; the single zero stands for none. -/
theorem fraction_cases (h : Passes f rem (places f f rem)) :
    rem = 0 ∧ fraction f rem = ['0'] ∨
      rem ≠ 0 ∧ Passes f rem (fraction f rem) ∧ fraction f rem ≠ [] := by
  unfold fraction
  split
  · exact .inl ⟨by assumption, rfl⟩
  · rename_i hrest
    exact .inr ⟨hrest, h, fun hnil => hrest (h.eq_nil_iff.mp hnil)⟩

theorem canonical_parts (hf : f ≤ 120) (bits : Int) : (parts bits f).Canonical := by
  have hwhole : (parts bits f).whole.head? = some '0' → (parts bits f).whole = ['0'] := by
    intro hzero
    have hnone : bits.natAbs / 2 ^ f = 0 := head?_toDigits hzero
    show Nat.toDigits 10 (bits.natAbs / 2 ^ f) = _
    rw [hnone]
    rfl
  have hdigits : ∀ c ∈ (parts bits f).whole, c.isDigit := fun c hc =>
    Nat.isDigit_of_mem_toDigits (by decide) (by decide) hc
  rcases fraction_cases (passes_parts hf bits) with ⟨-, hplaces⟩ | ⟨-, hpasses, hne⟩
  · have hzero : (parts bits f).places = ['0'] := hplaces
    exact ⟨Nat.toDigits_ne_nil, hdigits, hwhole, by simp [hzero], by simp [hzero], fun _ => hzero⟩
  · exact ⟨Nat.toDigits_ne_nil, hdigits, hwhole, hne, hpasses.isDigit,
      fun hlast => absurd hlast hpasses.getLast?_ne⟩

/-- Without a remainder the single zero stands for no places at all. -/
theorem value_fraction (h : Passes f rem (places f f rem)) :
    (Nat.ofDigitChars 10 (fraction f rem) 0 / 10 ^ (fraction f rem).length : ℚ) = rem / 2 ^ f := by
  unfold fraction
  split
  · rename_i hzero
    simp [hzero, Nat.ofDigitChars_cons]
  · have hvalue : (Nat.ofDigitChars 10 (places f f rem) 0 * 2 ^ f : ℚ) =
        rem * 10 ^ (places f f rem).length := by
      exact_mod_cast h.value
    have hten : (10 : ℚ) ^ (places f f rem).length ≠ 0 := pow_ne_zero _ (by decide)
    have htwo : (2 : ℚ) ^ f ≠ 0 := pow_ne_zero _ (by decide)
    rwa [div_eq_div_iff hten htwo]

theorem value_parts (hf : f ≤ 120) (bits : Int) : (parts bits f).value = bits / 2 ^ f := by
  have htwo : (2 : ℚ) ^ f ≠ 0 := pow_ne_zero _ (by decide)
  have hsplit : ((bits.natAbs / 2 ^ f : ℕ) : ℚ) + (bits.natAbs % 2 ^ f : ℕ) / 2 ^ f =
      bits.natAbs / 2 ^ f := by
    have hnat : (2 ^ f * (bits.natAbs / 2 ^ f : ℕ) + (bits.natAbs % 2 ^ f : ℕ) : ℚ) =
        bits.natAbs := by
      exact_mod_cast Nat.div_add_mod bits.natAbs (2 ^ f)
    rw [← hnat]
    field_simp
  have hwhole : Nat.ofDigitChars 10 (parts bits f).whole 0 = bits.natAbs / 2 ^ f :=
    Nat.ofDigitChars_ten_toDigits
  have hplaces := value_fraction (passes_parts hf bits)
  have hmagnitude : (parts bits f).value =
      (if bits < 0 then -1 else 1) * (bits.natAbs / 2 ^ f : ℚ) := by
    rw [DecimalText.value, hwhole, parts, hplaces, hsplit]
    simp
  rw [hmagnitude]
  split
  · rename_i hneg
    have habs : (bits.natAbs : ℚ) = -bits := by
      rw [Nat.cast_natAbs, abs_of_neg hneg, Int.cast_neg]
    rw [habs]
    ring
  · rename_i hpos
    have habs : (bits.natAbs : ℚ) = bits := by
      rw [Nat.cast_natAbs, abs_of_nonneg (Int.not_lt.mp hpos)]
    rw [habs, one_mul]

/-- The text denotes the number `bits / 2 ^ f`, and nothing in it could be left out. -/
structure DecimalText.Denotes (t : DecimalText) (bits : Int) (f : Nat) : Prop where
  canonical : t.Canonical
  negative : t.negative ↔ bits < 0
  value : t.value = bits / 2 ^ f
  integral : t.places = ['0'] ↔ 2 ^ f ∣ bits

/-- The text is written in words of 128 bits, its places in `f` passes at most. -/
structure DecimalText.InWords (t : DecimalText) (bits : Int) (f : Nat) : Prop where
  magnitude : bits.natAbs < 2 ^ 128
  unit : 2 ^ f < 2 ^ 128
  whole : t.whole = Nat.toDigits 10 (bits.natAbs >>> f)
  places : ∃ ds, Passes f (bits.natAbs &&& (2 ^ f - 1)) ds ∧ ds.length ≤ f ∧
    t.places = if ds = [] then ['0'] else ds

theorem denotes_parts (hf : f ≤ 120) (bits : Int) : (parts bits f).Denotes bits f where
  canonical := canonical_parts hf bits
  negative := decide_eq_true_iff
  value := value_parts hf bits
  integral := by
    have hdvd : (2 : Int) ^ f ∣ bits ↔ bits.natAbs % 2 ^ f = 0 := by
      rw [← Nat.dvd_iff_mod_eq_zero, ← Int.natCast_dvd]
      norm_cast
    rw [hdvd]
    rcases fraction_cases (passes_parts hf bits) with ⟨hrem, hplaces⟩ | ⟨hrem, hpasses, -⟩
    · exact iff_of_true hplaces hrem
    · refine iff_of_false (fun hzero => hpasses.getLast?_ne ?_) hrem
      have hplaces : fraction f (bits.natAbs % 2 ^ f) = ['0'] := hzero
      rw [hplaces]
      rfl

theorem inWords_parts (hf : f ≤ 120) {bits : Int} (hlow : -2 ^ 127 ≤ bits)
    (hhigh : bits < 2 ^ 127) : (parts bits f).InWords bits f where
  magnitude := by omega
  unit := Nat.pow_lt_pow_right (by decide) (by omega)
  whole := by rw [Nat.shiftRight_eq_div_pow]; rfl
  places := by
    have hpasses := passes_parts hf bits
    rw [Nat.and_two_pow_sub_one_eq_mod]
    exact ⟨_, hpasses, length_places_le _ _ _, fraction_eq hpasses⟩

/-- The decimal text of a fixed-point number of up to 128 bits denotes exactly that number, and no
step that writes it overflows. -/
theorem decimal_exact {bits : Int} (hlow : -2 ^ 127 ≤ bits) (hhigh : bits < 2 ^ 127)
    (width integerBits : Nat) :
    ∃ (f : Nat) (t : DecimalText), (f : Int) = min (max ((width : Int) - integerBits) 0) 120 ∧
      decimal bits width integerBits = String.ofList t.chars ∧ t.Denotes bits f ∧
        t.InWords bits f := by
  have hf : fractionBits width integerBits ≤ 120 := Nat.min_le_right _ _
  refine ⟨fractionBits width integerBits, parts bits _, ?_, ?_, denotes_parts hf bits,
    inWords_parts hf hlow hhigh⟩
  · unfold fractionBits
    omega
  · rw [chars_parts]
    rfl

/-- The least number of 128 bits has no fraction; the number after it needs all 120 places. -/
theorem decimal_of_leastBits :
    (∃ t : DecimalText, decimal (-2 ^ 127) 200 73 = String.ofList t.chars ∧ t.value = -128 ∧
      t.places = ['0']) ∧
    ∃ t : DecimalText, decimal (-2 ^ 127 + 1) 200 73 = String.ofList t.chars ∧
      t.value = -128 + 1 / 2 ^ 120 ∧ Passes 120 (2 ^ 120 - 1) t.places ∧ t.places.length = 120 := by
  constructor
  · obtain ⟨f, t, hf, htext, hdenotes, -⟩ :=
      decimal_exact (Int.le_refl (-2 ^ 127)) (by decide) 200 73
    obtain rfl : f = 120 := by omega
    refine ⟨t, htext, ?_, hdenotes.integral.mpr (by decide)⟩
    rw [hdenotes.value]
    norm_num
  · obtain ⟨f, t, hf, htext, hdenotes, hwords⟩ :=
      decimal_exact (show -2 ^ 127 ≤ (-2 ^ 127 + 1 : Int) by decide) (by decide) 200 73
    obtain rfl : f = 120 := by omega
    obtain ⟨ds, hpasses, hlength, hplaces⟩ := hwords.places
    have hrem : (-2 ^ 127 + 1 : Int).natAbs &&& (2 ^ 120 - 1) = 2 ^ 120 - 1 := by decide
    rw [hrem] at hpasses
    rw [if_neg (mt hpasses.eq_nil_iff.mp (by decide))] at hplaces
    subst hplaces
    refine ⟨t, htext, ?_, hpasses, Nat.le_antisymm hlength ?_⟩
    · rw [hdenotes.value]
      norm_num
    · -- the fraction has an odd numerator, so the power of ten has all 120 factors of two
      have hdvd : 2 ^ 120 ∣ (2 ^ 120 - 1) * 10 ^ t.places.length :=
        hpasses.value ▸ Nat.dvd_mul_left _ _
      have hten : 2 ^ 120 ∣ 2 ^ t.places.length * 5 ^ t.places.length := by
        rw [← Nat.mul_pow]
        exact Nat.Coprime.dvd_of_dvd_mul_left (by decide +kernel) hdvd
      have htwo : 2 ^ 120 ∣ 2 ^ t.places.length :=
        Nat.Coprime.dvd_of_dvd_mul_right (Nat.Coprime.pow _ _ (by decide)) hten
      exact (Nat.pow_dvd_pow_iff_le_right (by decide)).mp htwo

end GotoCheck.FixedPoint
