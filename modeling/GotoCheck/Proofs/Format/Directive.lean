import GotoCheck.Proofs.Format.Pieces

/-! Directives as they are written. What is read of a directive is what was written, whatever
follows it, and its width and precision come to the numbers in it or to the integers that its stars
take. -/
namespace GotoCheck.Format

/-- A width or a precision as it is written: in digits, or as a star with the integer it takes. -/
inductive WrittenAmount
  | digits (ds : List Char) (onlyDigits : ∀ c ∈ ds, c.isDigit)
  | star (e : Expr) (n : Int) (isInt : e.int? = some n)

namespace WrittenAmount

def chars : WrittenAmount → List Char
  | digits ds _ => ds
  | star _ _ _ => ['*']

def args : WrittenAmount → List Expr
  | digits _ _ => []
  | star e _ _ => [e]

/-- What it comes to; no digits come to zero. -/
def value : WrittenAmount → Int
  | digits ds _ => Nat.ofDigitChars 10 ds 0
  | star _ n _ => n

def amount : WrittenAmount → Amount
  | digits ds _ => .given (Nat.ofDigitChars 10 ds 0)
  | star _ _ _ => .star

theorem isDigit_or_star {a : WrittenAmount} {c : Char} (h : c ∈ a.chars) :
    c.isDigit ∨ c = '*' := by
  cases a with
  | digits ds onlyDigits => exact .inl (onlyDigits c h)
  | star => exact .inr (List.mem_singleton.mp h)

theorem resolve_amount (a : WrittenAmount) (rest : List Expr) :
    a.amount.resolve (a.args ++ rest) = (a.value, rest) := by
  cases a with
  | digits ds _ => rfl
  | star e n isInt => simp [amount, args, value, Amount.resolve, isInt]

end WrittenAmount

/-- What stands between a percent sign and a conversion character. -/
structure WrittenDirective where
  flags : List Char
  width : WrittenAmount
  precision : Option WrittenAmount
  modifiers : List Char
  onlyFlags : ∀ c ∈ flags, isFlag c
  /-- A zero in front of the width is a flag. -/
  noZero : width.chars.head? ≠ some '0'
  onlyModifiers : ∀ c ∈ modifiers, isLengthModifier c

/-- A character that ends a directive and can be nothing else in one. -/
def IsConversion (c : Char) : Prop :=
  !isFlag c && !c.isDigit && c != '*' && c != '.' && !isLengthModifier c && c != '%'

instance (c : Char) : Decidable (IsConversion c) := inferInstanceAs (Decidable (_ = true))

namespace WrittenDirective

def precisionChars (d : WrittenDirective) : List Char :=
  match d.precision with
  | none => []
  | some p => '.' :: p.chars

/-- The whole directive. -/
def chars (d : WrittenDirective) (conversion : Char) : List Char :=
  '%' :: (d.flags ++ (d.width.chars ++ (d.precisionChars ++ (d.modifiers ++ [conversion]))))

/-- The arguments of its stars, in order. -/
def starArgs (d : WrittenDirective) : List Expr :=
  d.width.args ++ (d.precision.map WrittenAmount.args).getD []

/-- At most 4096, whether negative or not. -/
def fieldWidth (d : WrittenDirective) : Nat := min d.width.value.natAbs 4096

def justifiesLeft (d : WrittenDirective) : Prop := '-' ∈ d.flags ∨ d.width.value < 0

instance (d : WrittenDirective) : Decidable d.justifiesLeft :=
  inferInstanceAs (Decidable (_ ∨ _))

/-- The least number of digits, if there is one: a negative precision counts as none. -/
def leastDigits? (d : WrittenDirective) : Option Nat :=
  d.precision.bind fun p => if p.value < 0 then none else some (min p.value.natAbs 4096)

/-- How it lays out what it converts. -/
def layout (d : WrittenDirective) : Layout where
  flags := { Flags.ofChars d.flags with left := decide d.justifiesLeft }
  width := d.fieldWidth
  precision := d.leastDigits?

/-- What is read of it. -/
def directive (d : WrittenDirective) (conversion : Char) : Directive where
  flags := Flags.ofChars d.flags
  width := d.width.amount
  precision := d.precision.map WrittenAmount.amount
  conversion := conversion

end WrittenDirective

/-! Reading. -/

theorem mem_or_head_of_append {c : Char} {run rest : List Char}
    (h : (run ++ rest).head? = some c) : c ∈ run ∨ rest.head? = some c := by
  cases run with
  | nil => exact .inr h
  | cons x run =>
    cases h
    exact .inl List.mem_cons_self

/-- Neither flags nor an amount go on in what follows. -/
def EndsAmount (rest : List Char) : Prop :=
  ∀ c, rest.head? = some c → isFlag c = false ∧ c.isDigit = false ∧ c ≠ '*'

/-- An amount as it stands in the text, whatever its star takes. -/
def WrittenAmount.text : WrittenAmount → AmountText
  | digits ds _ => .digits ds
  | star _ _ _ => .star

theorem WrittenAmount.chars_text (a : WrittenAmount) : a.text.chars = a.chars := by
  cases a <;> rfl

theorem WrittenAmount.amount_text (a : WrittenAmount) : a.text.amount = a.amount := by
  cases a <;> rfl

theorem WrittenAmount.endsAt_text (a : WrittenAmount) {rest : List Char} (h : EndsAmount rest) :
    a.text.EndsAt rest := by
  cases a with
  | digits ds onlyDigits =>
    exact ⟨onlyDigits, fun c hc => (h c hc).2.1, fun _ hstar => (h '*' hstar).2.2 rfl⟩
  | star => trivial

/-- Zero is the only digit among the flags. -/
theorem isFlag_of_isDigit {c : Char} (hdigit : c.isDigit) (hzero : c ≠ '0') : isFlag c = false := by
  have hflags : ∀ m ∈ ['-', '+', ' ', '0', '#'], m.isDigit → m = '0' := by simp
  rw [← Bool.not_eq_true]
  intro hflag
  have hmem : c ∈ ['-', '+', ' ', '0', '#'] := by simpa [isFlag, or_assoc] using hflag
  exact hzero (hflags c hmem hdigit)

namespace WrittenDirective
variable {d : WrittenDirective} {conversion : Char}

theorem head_modifiers (hc : IsConversion conversion) (rest : List Char) :
    ∀ c, (d.modifiers ++ conversion :: rest).head? = some c →
      isFlag c = false ∧ c.isDigit = false ∧ c ≠ '*' ∧ c ≠ '.' ∧ c ≠ '%' := by
  have hmodifier : ∀ m ∈ "hlzjtLq".toList,
      isFlag m = false ∧ m.isDigit = false ∧ m ≠ '*' ∧ m ≠ '.' ∧ m ≠ '%' := by simp [isFlag]
  intro c hhead
  rcases mem_or_head_of_append hhead with hmem | hhead
  · exact hmodifier c (List.contains_iff_mem.mp (d.onlyModifiers c hmem))
  · cases hhead
    simp only [IsConversion, Bool.and_eq_true, Bool.not_eq_true', bne_iff_ne] at hc
    obtain ⟨⟨⟨⟨⟨hflag, hdigit⟩, hstar⟩, hpoint⟩, -⟩, hpercent⟩ := hc
    exact ⟨hflag, hdigit, hstar, hpoint, hpercent⟩

theorem endsAmount_modifiers (hc : IsConversion conversion) (rest : List Char) :
    EndsAmount (d.modifiers ++ conversion :: rest) := fun c hhead =>
  let h := head_modifiers hc rest c hhead
  ⟨h.1, h.2.1, h.2.2.1⟩

theorem endsAmount_precision (hc : IsConversion conversion) (rest : List Char) :
    EndsAmount (d.precisionChars ++ (d.modifiers ++ conversion :: rest)) := by
  unfold precisionChars
  split
  · exact endsAmount_modifiers hc rest
  · intro c hhead
    cases hhead
    decide

theorem head_width (hc : IsConversion conversion) (rest : List Char) :
    ∀ c, (d.width.chars ++ (d.precisionChars ++ (d.modifiers ++ conversion :: rest))).head? =
      some c → isFlag c = false := by
  intro c hhead
  have hzero := d.noZero
  cases hw : d.width with
  | star =>
    rw [hw] at hhead
    cases hhead
    decide
  | digits ds onlyDigits =>
    rw [hw] at hhead hzero
    cases ds with
    | nil => exact (endsAmount_precision hc rest c hhead).1
    | cons x ds =>
      cases hhead
      exact isFlag_of_isDigit (onlyDigits c List.mem_cons_self) fun h => hzero (congrArg some h)

theorem precisionText_eq (d : WrittenDirective) :
    precisionText (d.precision.map WrittenAmount.text) = d.precisionChars := by
  unfold precisionChars
  cases d.precision with
  | none => rfl
  | some p => exact congrArg ('.' :: ·) p.chars_text

/-- The directive as it stands in the text. -/
def text (d : WrittenDirective) (hc : IsConversion conversion) : DirectiveText where
  flags := d.flags
  width := d.width.text
  precision := d.precision.map WrittenAmount.text
  modifiers := d.modifiers
  conversion := conversion
  onlyFlags := d.onlyFlags
  flagsEnd := by
    rw [d.width.chars_text, d.precisionText_eq]
    exact head_width hc []
  widthEnds := by
    rw [d.precisionText_eq]
    exact d.width.endsAt_text (endsAmount_precision hc [])
  pointEnds _ hpoint := (head_modifiers hc [] '.' hpoint).2.2.2.1 rfl
  precisionEnds := by
    intro p hp
    obtain ⟨a, -, rfl⟩ := Option.map_eq_some_iff.mp hp
    exact a.endsAt_text (endsAmount_modifiers hc [])
  onlyModifiers := d.onlyModifiers
  modifiersEnd := by
    simp only [IsConversion, Bool.and_eq_true, Bool.not_eq_true'] at hc
    exact hc.1.2

theorem chars_text (d : WrittenDirective) (hc : IsConversion conversion) :
    d.chars conversion = '%' :: (d.text hc).chars := by
  rw [DirectiveText.chars, text, d.width.chars_text, d.precisionText_eq, chars]

theorem directive_text (d : WrittenDirective) (hc : IsConversion conversion) :
    (d.text hc).directive = d.directive conversion := by
  have hamount : AmountText.amount ∘ WrittenAmount.text = WrittenAmount.amount :=
    funext WrittenAmount.amount_text
  rw [DirectiveText.directive, text, d.width.amount_text, Option.map_map, hamount, directive]

theorem percent_ne_head (hc : IsConversion conversion) (rest : List Char) :
    (d.flags ++ (d.width.chars ++ (d.precisionChars ++
      (d.modifiers ++ conversion :: rest)))).head? ≠ some '%' := by
  intro hhead
  have hamount : ∀ a : WrittenAmount, '%' ∉ a.chars := fun a h =>
    absurd (a.isDigit_or_star h) (by decide)
  rcases mem_or_head_of_append hhead with hmem | hhead
  · exact absurd (d.onlyFlags '%' hmem) (by decide)
  rcases mem_or_head_of_append hhead with hmem | hhead
  · exact hamount d.width hmem
  rcases mem_or_head_of_append hhead with hmem | hhead
  · unfold precisionChars at hmem
    split at hmem
    · cases hmem
    · rename_i p _
      rcases List.mem_cons.mp hmem with hpoint | hmem
      · exact absurd hpoint (by decide)
      · exact hamount p hmem
  · exact (head_modifiers hc rest '%' hhead).2.2.2.2 rfl

/-- A directive is read as it is written, and so is what follows it. -/
theorem parse_chars (d : WrittenDirective) (hc : IsConversion conversion) (rest : List Char) :
    parse (d.chars conversion ++ rest) = .directive (d.directive conversion) :: parse rest := by
  have hpercent : (d.text hc).chars.head? ≠ some '%' := by
    rw [DirectiveText.chars, text, d.width.chars_text, d.precisionText_eq]
    exact percent_ne_head hc []
  rw [d.chars_text hc, ← d.directive_text hc]
  exact (Piece.directive (d.text hc) hpercent).parse_chars rest

/-! Expanding. -/

theorem expand_directive (names : SymbolTable) (d : WrittenDirective) (conversion : Char) (e : Expr)
    (args : List Expr) :
    (d.directive conversion).expand names (d.starArgs ++ e :: args) =
      (convert names d.layout conversion e, args) := by
  have hleft : (d.flags.contains '-' || decide (d.width.value < 0)) = decide d.justifiesLeft := by
    rw [List.contains_eq_mem, ← Bool.decide_or]
    rfl
  have hlayout : d.layout = ⟨{ Flags.ofChars d.flags with
      left := d.flags.contains '-' || decide (d.width.value < 0) },
      clampField d.width.value, d.leastDigits?⟩ := by
    rw [hleft]
    rfl
  rw [hlayout]
  unfold starArgs leastDigits?
  cases hprecision : d.precision with
  | none =>
    have hwidth := d.width.resolve_amount (e :: args)
    simp only [Directive.expand, directive, hprecision, Option.map_none, Option.getD_none,
      List.append_nil, hwidth]
    rfl
  | some p =>
    have hwidth := d.width.resolve_amount (p.args ++ e :: args)
    have hp := p.resolve_amount (e :: args)
    simp only [Directive.expand, directive, hprecision, Option.map_some, Option.getD_some,
      List.append_assoc, hwidth, hp]
    rfl

theorem expandItems_chars (names : SymbolTable) (d : WrittenDirective)
    (hc : IsConversion conversion) (rest : List Char) (e : Expr) (args : List Expr) :
    expandItems names (parse (d.chars conversion ++ rest)) (d.starArgs ++ e :: args) =
      convert names d.layout conversion e ++ expandItems names (parse rest) args := by
  rw [d.parse_chars hc, expandItems, expand_directive]

end WrittenDirective
end GotoCheck.Format
