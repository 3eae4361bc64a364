import GotoCheck.Proofs.Format.Directive
import Mathlib.Algebra.Group.Int.Defs
import Mathlib.Data.List.DropRight

/-! Integers in fields. A field is as wide as its directive asks for or as its number needs, it is
filled on one side of the digits only, and the number in it can be read back. -/
namespace GotoCheck.Format

/-! Numerals. -/

/-- The value of a digit; letters of either case follow the nine. -/
def digitValue (c : Char) : Nat :=
  if c.isDigit then c.toNat - '0'.toNat else c.toLower.toNat - 'a'.toNat + 10

def numeralValue (base : Nat) (ds : List Char) : Nat :=
  ds.foldl (fun n c => base * n + digitValue c) 0

/-- Neither padding nor a sign. -/
def IsNumeralChar (c : Char) : Prop := c.isAlphanum

instance (c : Char) : Decidable (IsNumeralChar c) := inferInstanceAs (Decidable (_ = true))

theorem digitValue_digitChar : ∀ n < 16,
    (digitValue n.digitChar = n ∧ IsNumeralChar n.digitChar) ∧
      digitValue n.digitChar.toUpper = n ∧ IsNumeralChar n.digitChar.toUpper := by
  decide

theorem numeralValue_concat (base : Nat) (ds : List Char) (c : Char) :
    numeralValue base (ds ++ [c]) = base * numeralValue base ds + digitValue c := by
  simp [numeralValue]

theorem numeralValue_zeros (base k : Nat) (ds : List Char) :
    numeralValue base (List.replicate k '0' ++ ds) = numeralValue base ds := by
  have hzeros : (List.replicate k '0').foldl (fun n c => base * n + digitValue c) 0 = 0 := by
    induction k with
    | zero => rfl
    | succ k ih => exact ih
  rw [numeralValue, List.foldl_append, hzeros, numeralValue]

/-- The digits `ds` are a numeral of `n`. -/
structure Denotes (base : Nat) (ds : List Char) (n : Nat) : Prop where
  ne_nil : ds ≠ []
  isNumeralChar : ∀ c ∈ ds, IsNumeralChar c
  value : numeralValue base ds = n

theorem denotes_singleton {base n : Nat} {c : Char} (h : digitValue c = n ∧ IsNumeralChar c) :
    Denotes base [c] n where
  ne_nil := List.cons_ne_nil c []
  isNumeralChar := by
    intro x hx
    exact List.mem_singleton.mp hx ▸ h.2
  value := by simp [numeralValue, h.1]

theorem Denotes.concat {base n m : Nat} {ds : List Char} {c : Char} (h : Denotes base ds n)
    (hc : digitValue c = m ∧ IsNumeralChar c) : Denotes base (ds ++ [c]) (base * n + m) where
  ne_nil := by simp
  isNumeralChar := by
    intro x hx
    rcases List.mem_append.mp hx with hx | hx
    · exact h.isNumeralChar x hx
    · exact List.mem_singleton.mp hx ▸ hc.2
  value := by rw [numeralValue_concat, h.value, hc.1]

theorem Denotes.zeros {base n : Nat} {ds : List Char} (h : Denotes base ds n) (k : Nat) :
    Denotes base (List.replicate k '0' ++ ds) n where
  ne_nil := by simp [h.ne_nil]
  isNumeralChar := by
    intro x hx
    rcases List.mem_append.mp hx with hx | hx
    · rw [List.eq_of_mem_replicate hx]
      decide
    · exact h.isNumeralChar x hx
  value := by rw [numeralValue_zeros, h.value]

/-- The digits of a number in some base, in either case, are a numeral of it. -/
theorem denotes_toDigits {base : Nat} (hlow : 1 < base) (hhigh : base ≤ 16) (n : Nat) :
    Denotes base (Nat.toDigits base n) n ∧ Denotes base (upper (Nat.toDigits base n)) n := by
  -- Along the division by the base that makes the digits, the last one first.
  induction n using Nat.strongRecOn with
  | ind n ih =>
    have hmod : n % base < 16 := (Nat.mod_lt n (by omega)).trans_le hhigh
    obtain ⟨hdigit, hdigitUpper⟩ := digitValue_digitChar (n % base) hmod
    by_cases hn : n < base
    · rw [Nat.mod_eq_of_lt hn] at hdigit hdigitUpper
      rw [Nat.toDigits_of_lt_base hn]
      exact ⟨denotes_singleton hdigit, denotes_singleton hdigitUpper⟩
    · have hbase : base ≤ n := Nat.le_of_not_lt hn
      obtain ⟨hfront, hfrontUpper⟩ := ih (n / base) (Nat.div_lt_self (by omega) hlow)
      have hlast := hfront.concat hdigit
      have hlastUpper := hfrontUpper.concat hdigitUpper
      rw [Nat.div_add_mod] at hlast hlastUpper
      rw [Nat.toDigits_of_base_le hlow hbase, upper, List.map_append, ← upper]
      exact ⟨hlast, hlastUpper⟩

/-! Reading a field. -/

/-- The text between the spaces around it. -/
def stripped (cs : List Char) : List Char := (cs.dropWhile (· == ' ')).rdropWhile (· == ' ')

/-- A number with a sign or without one, spaces around it. -/
def signedValue (cs : List Char) : Int :=
  match stripped cs with
  | '-' :: ds => -(numeralValue 10 ds : Int)
  | '+' :: ds => numeralValue 10 ds
  | ds => numeralValue 10 ds

theorem dropWhile_spaces (a : Nat) {cs : List Char} (hcs : cs.head? ≠ some ' ') :
    (List.replicate a ' ' ++ cs).dropWhile (· == ' ') = cs := by
  refine (span_run ?_ ?_).2
  · intro c hc
    rw [List.eq_of_mem_replicate hc]
    rfl
  · intro c hc
    refine beq_eq_false_iff_ne.mpr ?_
    rintro rfl
    exact hcs hc

theorem stripped_spaces (a b : Nat) {cs : List Char} (hcs : cs ≠ []) (hspace : ' ' ∉ cs) :
    stripped (List.replicate a ' ' ++ (cs ++ List.replicate b ' ')) = cs := by
  have hfront : (cs ++ List.replicate b ' ').head? ≠ some ' ' := by
    rw [List.head?_append_of_ne_nil cs hcs]
    exact fun h => hspace (List.mem_of_head? h)
  have hback : cs.reverse.head? ≠ some ' ' := by
    rw [List.head?_reverse]
    exact fun h => hspace (List.mem_of_getLast? h)
  rw [stripped, dropWhile_spaces a hfront, List.rdropWhile, List.reverse_append,
    List.reverse_replicate, dropWhile_spaces b hback, List.reverse_reverse]

/-! Fields. -/

namespace WrittenDirective
variable {d : WrittenDirective} {front digits out : List Char}

/-- Zeros fill the field if they are asked for, unless it is justified to the left or a number of
digits is asked for. -/
def fillsZeros (d : WrittenDirective) : Prop := '0' ∈ d.flags ∧ d.leastDigits? = none

instance (d : WrittenDirective) : Decidable d.fillsZeros := inferInstanceAs (Decidable (_ ∧ _))

/-- A number in its field: what fills the field up stands behind the number, between the digits and
what is in front of them, or before the number. -/
structure Fills (d : WrittenDirective) (front digits out : List Char) : Prop where
  length : out.length = max d.fieldWidth (front ++ digits).length
  shape : ∃ n, out =
    if d.justifiesLeft then front ++ digits ++ List.replicate n ' '
    else if d.fillsZeros then front ++ List.replicate n '0' ++ digits
    else List.replicate n ' ' ++ front ++ digits

/-- The sign of a number. -/
def sign (d : WrittenDirective) (v : Int) : List Char :=
  if v < 0 then ['-'] else if '+' ∈ d.flags then ['+'] else if ' ' ∈ d.flags then [' '] else []

/-- Digits with zeros before them, as many as are asked for. -/
def padded (d : WrittenDirective) (digits : List Char) : List Char :=
  List.replicate (d.leastDigits?.getD 0 - digits.length) '0' ++ digits

theorem fills_padInteger (sign mark digits : List Char) :
    d.Fills (sign ++ mark) (d.padded digits) (padInteger d.layout sign mark digits) := by
  have hpadded : withPrecision d.layout digits = d.padded digits := rfl
  have hzeros : (d.layout.flags.zero && d.layout.precision.isNone) = decide d.fillsZeros := by
    show (d.flags.contains '0' && d.leastDigits?.isNone) = _
    rw [Bool.eq_iff_iff, decide_eq_true_iff]
    simp [fillsZeros]
  have hleft : d.layout.flags.left = decide d.justifiesLeft := rfl
  have hwidth : d.layout.width = d.fieldWidth := rfl
  unfold padInteger padNumber pad
  rw [hpadded, hzeros, hleft, hwidth]
  generalize d.padded digits = digits
  refine ⟨?_, d.fieldWidth - (sign ++ mark ++ digits).length, ?_⟩
  · by_cases hj : d.justifiesLeft <;> by_cases hz : d.fillsZeros <;> simp [hj, hz] <;> omega
  · by_cases hj : d.justifiesLeft <;> by_cases hz : d.fillsZeros <;> simp [hj, hz]

/-- Without its padding a field holds what is in front of the digits and then the digits, between
them nothing but zeros. -/
theorem Fills.stripped_eq {mark : List Char} {j : Nat}
    (h : d.Fills (List.replicate j ' ' ++ mark) digits out) (hmark : ' ' ∉ mark)
    (hdigits : ' ' ∉ digits) (hne : digits ≠ []) :
    ∃ m, stripped out = mark ++ (List.replicate m '0' ++ digits) := by
  have hnone : ∀ m, mark ++ (List.replicate m '0' ++ digits) ≠ [] ∧
      ' ' ∉ mark ++ (List.replicate m '0' ++ digits) := by
    intro m
    simp [hne, hmark, hdigits]
  obtain ⟨n, hout⟩ := h.shape
  split at hout
  · -- Spaces behind the number.
    refine ⟨0, ?_⟩
    rw [← stripped_spaces j n (hnone 0).1 (hnone 0).2, hout]
    simp
  split at hout
  · -- Zeros before the digits.
    refine ⟨n, ?_⟩
    rw [← stripped_spaces j 0 (hnone n).1 (hnone n).2, hout]
    simp
  · -- Spaces before the number, and one of them may stand for its sign.
    refine ⟨0, ?_⟩
    rw [← stripped_spaces (n + j) 0 (hnone 0).1 (hnone 0).2, hout, List.replicate_add]
    simp only [List.replicate_zero, List.nil_append, List.append_nil, List.append_assoc]

theorem signChars_layout (v : Int) : signChars d.layout.flags (decide (v < 0)) = d.sign v := by
  show (if decide (v < 0) then _ else if d.flags.contains '+' then _ else
    if d.flags.contains ' ' then _ else _) = _
  simp [sign]

/-- A space in place of a sign is padding. -/
theorem sign_eq (d : WrittenDirective) (v : Int) :
    ∃ j mark, d.sign v = List.replicate j ' ' ++ mark ∧
      (mark = ['-'] ∧ v < 0 ∨ (mark = ['+'] ∨ mark = []) ∧ 0 ≤ v) := by
  unfold sign
  split
  · exact ⟨0, ['-'], rfl, .inl ⟨rfl, ‹_›⟩⟩
  · have hv : 0 ≤ v := by omega
    split
    · exact ⟨0, ['+'], rfl, .inr ⟨.inl rfl, hv⟩⟩
    split
    · exact ⟨1, [], rfl, .inr ⟨.inr rfl, hv⟩⟩
    · exact ⟨0, [], rfl, .inr ⟨.inr rfl, hv⟩⟩

/-- A number in its field reads as that number. -/
theorem Fills.signedValue_eq {v : Int} (h : d.Fills (d.sign v) digits out)
    (hdigits : Denotes 10 digits v.natAbs) : signedValue out = v := by
  have hplain : ∀ c ∈ [' ', '-', '+'], ¬IsNumeralChar c := by simp [IsNumeralChar, Char.isAlphanum]
  have hspace : ' ' ∉ digits := fun hmem => hplain ' ' (by decide) (hdigits.isNumeralChar ' ' hmem)
  obtain ⟨j, mark, hsign, hmark⟩ := d.sign_eq v
  have hno : ' ' ∉ mark := by
    rcases hmark with ⟨rfl, -⟩ | ⟨rfl | rfl, -⟩ <;> decide
  rw [hsign] at h
  obtain ⟨m, hstripped⟩ := h.stripped_eq hno hspace hdigits.ne_nil
  have hzeros := hdigits.zeros m
  generalize List.replicate m '0' ++ digits = ds at hstripped hzeros
  unfold signedValue
  rw [hstripped]
  rcases hmark with ⟨rfl, hv⟩ | ⟨rfl | rfl, hv⟩
  · show -(numeralValue 10 ds : Int) = v
    rw [hzeros.value]
    omega
  · show (numeralValue 10 ds : Int) = v
    rw [hzeros.value]
    omega
  · -- Digits that no sign precedes do not start with one either.
    rw [List.nil_append]
    split
    · exact absurd (hzeros.isNumeralChar '-' List.mem_cons_self) (hplain '-' (by decide))
    · exact absurd (hzeros.isNumeralChar '+' List.mem_cons_self) (hplain '+' (by decide))
    · rw [hzeros.value]
      omega

end WrittenDirective

/-! Conversions. -/

/-- The conversions that take an integer without its sign. -/
inductive Radix
  | decimal | octal | hex | upperHex

namespace Radix

def conversion : Radix → Char
  | decimal => 'u'
  | octal => 'o'
  | hex => 'x'
  | upperHex => 'X'

def base : Radix → Nat
  | decimal => 10
  | octal => 8
  | hex | upperHex => 16

/-- What the alternate form has before the digits. -/
def mark : Radix → List Char
  | decimal => []
  | octal => ['0']
  | hex => ['0', 'x']
  | upperHex => ['0', 'X']

def digits (r : Radix) (n : Nat) : List Char :=
  match r with
  | upperHex => upper (Nat.toDigits r.base n)
  | _ => Nat.toDigits r.base n

theorem denotes_digits (r : Radix) (n : Nat) : Denotes r.base (r.digits n) n := by
  cases r with
  | decimal => exact (denotes_toDigits (by decide) (by decide) n).1
  | octal => exact (denotes_toDigits (by decide) (by decide) n).1
  | hex => exact (denotes_toDigits (by decide) (by decide) n).1
  | upperHex => exact (denotes_toDigits (by decide) (by decide) n).2

theorem isConversion (r : Radix) : IsConversion r.conversion := by
  cases r <;> decide

theorem space_notMem_mark (r : Radix) : ' ' ∉ r.mark := by
  cases r <;> decide

end Radix

/-- How many bits a negative argument is read in: those of its type, 64 if that has no width, and
127 at the most. -/
def argumentBits (e : Expr) : Nat := min (e.type.width?.getD 64) 127

/-- What a value is without its sign. One below what the bits hold wraps around in 128 bits. -/
structure IsUnsigned (bits : Nat) (v : Int) (n : Nat) : Prop where
  nonneg : 0 ≤ v → n = v
  inBits : -2 ^ bits ≤ v → v < 0 → n = v + 2 ^ bits
  below : v < -2 ^ bits → n = (v + 2 ^ bits) % 2 ^ 128

theorem isUnsigned_unsignedValue (e : Expr) (v : Int) :
    IsUnsigned (argumentBits e) v (unsignedValue v e.type) := by
  have hbits : argumentBits e ≤ 127 := Nat.min_le_right _ _
  have hwrapped : v < 0 →
      (unsignedValue v e.type : Int) = (v + 2 ^ argumentBits e) % 2 ^ 128 := by
    intro hv
    have hmod : 0 ≤ (v + 2 ^ argumentBits e) % 2 ^ 128 := Int.emod_nonneg _ (by decide)
    rw [unsignedValue, if_neg (Int.not_le.mpr hv), wrap]
    have hpow (k : Nat) : Int.ofNat (Nat.pow 2 k) = 2 ^ k := Int.natCast_pow 2 k
    rw [hpow, hpow]
    exact Int.toNat_of_nonneg hmod
  have hpow : (0 : Int) < 2 ^ argumentBits e := Int.pow_pos (by decide)
  refine ⟨fun hv => ?_, fun hlow hv => ?_, fun hlow => hwrapped (by omega)⟩
  · rw [unsignedValue, if_pos hv]
    exact Int.toNat_of_nonneg hv
  · have hle : (2 : Int) ^ argumentBits e ≤ 2 ^ 127 := by
      exact_mod_cast Nat.pow_le_pow_right (by decide) hbits
    rw [hwrapped hv]
    exact Int.emod_eq_of_lt (by omega) (by omega)

/-! Directives. -/

namespace WrittenDirective

/-- Zero goes without a mark. -/
def markOf (d : WrittenDirective) (r : Radix) (n : Nat) : List Char :=
  if '#' ∈ d.flags ∧ n ≠ 0 then r.mark else []

theorem Fills.numeralValue_eq {d : WrittenDirective} {r : Radix} {n : Nat} {out : List Char}
    (h : d.Fills (d.markOf r n) (d.padded (r.digits n)) out) :
    numeralValue r.base ((stripped out).drop (d.markOf r n).length) = n := by
  have hdigits : Denotes r.base (d.padded (r.digits n)) n := (r.denotes_digits n).zeros _
  have hspace : ' ' ∉ d.padded (r.digits n) := fun hmem =>
    absurd (hdigits.isNumeralChar ' ' hmem) (by decide)
  have hmark : ' ' ∉ d.markOf r n := by
    unfold markOf
    split
    · exact r.space_notMem_mark
    · exact List.not_mem_nil
  have hfront : d.Fills (List.replicate 0 ' ' ++ d.markOf r n) (d.padded (r.digits n)) out := h
  obtain ⟨m, hstripped⟩ := hfront.stripped_eq hmark hspace hdigits.ne_nil
  rw [hstripped, List.drop_left]
  exact (hdigits.zeros m).value

theorem expand_chars (names : SymbolTable) (d : WrittenDirective) {conversion : Char}
    (hc : IsConversion conversion) (rest : List Char) (e : Expr) (args : List Expr) :
    expand names (String.ofList (d.chars conversion ++ rest)) (d.starArgs ++ e :: args) =
      String.ofList (convert names d.layout conversion e) ++
        expand names (String.ofList rest) args := by
  rw [expand, String.toList_ofList, d.expandItems_chars names hc, String.ofList_append, expand,
    String.toList_ofList]

theorem convert_signed (names : SymbolTable) (d : WrittenDirective) {e : Expr} {v : Int}
    (he : e.int? = some v) {conversion : Char} (hc : conversion ∈ ['d', 'i']) :
    d.Fills (d.sign v) (d.padded (Nat.toDigits 10 v.natAbs))
      (convert names d.layout conversion e) := by
  have hconvert : convert names d.layout conversion e = signedChars d.layout v := by
    have hcases : conversion = 'd' ∨ conversion = 'i' := by simpa using hc
    rcases hcases with rfl | rfl
    · simp only [convert, integerChars, he]
    · simp only [convert, integerChars, he]
  have hfills := d.fills_padInteger (d.sign v) [] (Nat.toDigits 10 v.natAbs)
  rw [List.append_nil] at hfills
  rw [hconvert, signedChars, signChars_layout]
  exact hfills

theorem convert_unsigned (names : SymbolTable) (d : WrittenDirective) {e : Expr} {v : Int}
    (he : e.int? = some v) (r : Radix) :
    d.Fills (d.markOf r (unsignedValue v e.type)) (d.padded (r.digits (unsignedValue v e.type)))
      (convert names d.layout r.conversion e) := by
  have hconvert : convert names d.layout r.conversion e = unsignedChars d.layout
      (unsignedValue v e.type) r.mark (r.digits (unsignedValue v e.type)) := by
    cases r <;> simp only [convert, Radix.conversion, integerChars, he, Radix.mark, Radix.digits,
      Radix.base]
  generalize unsignedValue v e.type = n at hconvert
  have hmark : (if d.layout.flags.alternate && n != 0 then r.mark else []) = d.markOf r n := by
    show (if d.flags.contains '#' && n != 0 then r.mark else []) = _
    simp [markOf]
  rw [hconvert, unsignedChars, hmark]
  exact d.fills_padInteger [] (d.markOf r n) (r.digits n)

/-- Integers keep their value and the width of their field. -/
theorem integers_keep_value (names : SymbolTable) (d : WrittenDirective) {e : Expr} {v : Int}
    (he : e.int? = some v) (rest : List Char) (args : List Expr) :
    (∀ conversion ∈ ['d', 'i'], ∃ out,
      expand names (String.ofList (d.chars conversion ++ rest)) (d.starArgs ++ e :: args) =
        String.ofList out ++ expand names (String.ofList rest) args ∧
      d.Fills (d.sign v) (d.padded (Nat.toDigits 10 v.natAbs)) out ∧ signedValue out = v) ∧
    ∀ r : Radix, ∃ out n,
      expand names (String.ofList (d.chars r.conversion ++ rest)) (d.starArgs ++ e :: args) =
        String.ofList out ++ expand names (String.ofList rest) args ∧
      IsUnsigned (argumentBits e) v n ∧
      d.Fills (d.markOf r n) (d.padded (r.digits n)) out ∧
      numeralValue r.base ((stripped out).drop (d.markOf r n).length) = n := by
  refine ⟨fun conversion hc => ?_, fun r => ?_⟩
  · have hconversion : ∀ c ∈ ['d', 'i'], IsConversion c := by
      simp [IsConversion, isFlag, isLengthModifier]
    have hfills := d.convert_signed names he hc
    refine ⟨_, d.expand_chars names (hconversion conversion hc) rest e args, hfills, ?_⟩
    exact hfills.signedValue_eq ((denotes_toDigits (by decide) (by decide) _).1.zeros _)
  · have hfills := d.convert_unsigned names he r
    exact ⟨_, _, d.expand_chars names r.isConversion rest e args, isUnsigned_unsignedValue e v,
      hfills, hfills.numeralValue_eq⟩

/-- A sign, the mark of the base, a least number of digits, and a width from a negative argument. -/
def leftPlusStar : WrittenDirective where
  flags := ['+', '0', '#']
  width := .star (.ofInt (-12) .int) (-12) rfl
  precision := some (.digits ['4'] (by simp))
  modifiers := ['l']
  onlyFlags := by simp [isFlag]
  noZero := by decide
  onlyModifiers := by simp [isLengthModifier]

theorem value_of_leftPlusStar :
    (String.ofList (leftPlusStar.chars 'd' ++ ['|']) = "%+0#*.4ld|" ∧
      ∃ out, expand .empty "%+0#*.4ld|" [.ofInt (-12) .int, .ofInt 42 .int] =
          String.ofList out ++ expand .empty (String.ofList ['|']) [] ∧
        out.length = 12 ∧ signedValue out = 42) ∧
    String.ofList (leftPlusStar.chars 'x' ++ ['|']) = "%+0#*.4lx|" ∧
      ∃ out, expand .empty "%+0#*.4lx|" [.ofInt (-12) .int, .ofInt (-2) .int] =
          String.ofList out ++ expand .empty (String.ofList ['|']) [] ∧
        out.length = 12 ∧ numeralValue 16 ((stripped out).drop 2) = 4294967294 := by
  constructor
  · have hformat : String.ofList (leftPlusStar.chars 'd' ++ ['|']) = "%+0#*.4ld|" := by decide
    have he : (Expr.ofInt 42 .int).int? = some 42 := rfl
    obtain ⟨out, hout, hfills, hvalue⟩ :=
      (integers_keep_value .empty leftPlusStar he ['|'] []).1 'd' (by decide)
    rw [hformat] at hout
    refine ⟨hformat, out, hout, ?_, hvalue⟩
    rw [hfills.length]
    decide
  · have hformat : String.ofList (leftPlusStar.chars 'x' ++ ['|']) = "%+0#*.4lx|" := by decide
    have he : (Expr.ofInt (-2) .int).int? = some (-2) := rfl
    obtain ⟨out, n, hout, hn, hfills, hvalue⟩ :=
      (integers_keep_value .empty leftPlusStar he ['|'] []).2 .hex
    have hvalue32 : (n : Int) = -2 + 2 ^ 32 := hn.inBits (by decide) (by decide)
    obtain rfl : n = 4294967294 := by omega
    change expand .empty (String.ofList (leftPlusStar.chars 'x' ++ ['|'])) _ = _ at hout
    rw [hformat] at hout
    refine ⟨hformat, out, hout, ?_, hvalue⟩
    rw [hfills.length]
    decide

end WrittenDirective
end GotoCheck.Format
