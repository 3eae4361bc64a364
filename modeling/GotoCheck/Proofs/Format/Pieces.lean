import GotoCheck.Format.Output
import Mathlib.Algebra.GroupWithZero.Nat
import Mathlib.Data.List.Basic
import Mathlib.Data.List.TakeWhile

/-! Format strings piece by piece. A string in which every directive comes to its end expands by
itself, whatever follows it, and takes as many arguments as its text says: one for each directive
and one for each star. What the arguments are makes no difference to how many are taken. -/
namespace GotoCheck.Format

/-- A width or a precision in a format string: digits, perhaps none, or a star. -/
inductive AmountText
  | digits (ds : List Char)
  | star

namespace AmountText

def chars : AmountText → List Char
  | digits ds => ds
  | star => ['*']

def amount : AmountText → Amount
  | digits ds => .given (Nat.ofDigitChars 10 ds 0)
  | star => .star

/-- It ends where `rest` begins, and goes no further. -/
def EndsAt (rest : List Char) : AmountText → Prop
  | digits ds => (∀ c ∈ ds, c.isDigit) ∧ (∀ c, rest.head? = some c → c.isDigit = false) ∧
      (ds = [] → rest.head? ≠ some '*')
  | star => True

def stars : AmountText → Nat
  | digits _ => 0
  | star => 1

theorem arity_amount (a : AmountText) : a.amount.arity = a.stars := by
  cases a with
  | digits => rfl
  | star => rfl

end AmountText

def precisionText : Option AmountText → List Char
  | none => []
  | some p => '.' :: p.chars

/-- What stands behind a percent sign up to the conversion character. Each part goes on as far as it
can, and the conversion may be any character that is left. -/
structure DirectiveText where
  flags : List Char
  width : AmountText
  precision : Option AmountText
  modifiers : List Char
  conversion : Char
  onlyFlags : ∀ c ∈ flags, isFlag c
  flagsEnd : ∀ c, (width.chars ++ (precisionText precision ++ (modifiers ++ [conversion]))).head? =
    some c → isFlag c = false
  widthEnds : width.EndsAt (precisionText precision ++ (modifiers ++ [conversion]))
  pointEnds : precision = none → (modifiers ++ [conversion]).head? ≠ some '.'
  precisionEnds : ∀ p ∈ precision, p.EndsAt (modifiers ++ [conversion])
  onlyModifiers : ∀ c ∈ modifiers, isLengthModifier c
  modifiersEnd : isLengthModifier conversion = false

namespace DirectiveText

def chars (d : DirectiveText) : List Char :=
  d.flags ++ (d.width.chars ++ (precisionText d.precision ++ (d.modifiers ++ [d.conversion])))

def directive (d : DirectiveText) : Directive where
  flags := Flags.ofChars d.flags
  width := d.width.amount
  precision := d.precision.map AmountText.amount
  conversion := d.conversion

/-- The stars among its width and precision. -/
def stars (d : DirectiveText) : Nat := d.width.stars + (d.precision.map AmountText.stars).getD 0

end DirectiveText

/-- A piece of a format string: a character that stands for itself, two percent signs for one, or a
percent sign and the rest of a directive. -/
inductive Piece
  | plain (c : Char) (noPercent : c ≠ '%')
  | percent
  | directive (d : DirectiveText) (noPercent : d.chars.head? ≠ some '%')

namespace Piece

def chars : Piece → List Char
  | plain c _ => [c]
  | percent => ['%', '%']
  | directive d _ => '%' :: d.chars

def item : Piece → Item
  | plain c _ => .plain c
  | percent => .plain '%'
  | directive d _ => .directive d.directive

/-- One for the conversion and one for each star. -/
def arguments : Piece → Nat
  | plain _ _ | percent => 0
  | directive d _ => d.stars + 1

end Piece

/-- The pieces spell the string. -/
def Spell (ps : List Piece) (f : String) : Prop := f.toList = ps.flatMap Piece.chars

instance (ps : List Piece) (f : String) : Decidable (Spell ps f) :=
  inferInstanceAs (Decidable (_ = _))

/-- Every percent sign of the string starts two of them or a directive that ends in the string. -/
def Complete (f : String) : Prop := ∃ ps, Spell ps f

/-! Reading. -/

/-- A run of characters is read up to where it ends. -/
theorem span_run {p : Char → Bool} {run rest : List Char} (hrun : ∀ c ∈ run, p c)
    (hrest : ∀ c, rest.head? = some c → p c = false) :
    (run ++ rest).takeWhile p = run ∧ (run ++ rest).dropWhile p = rest := by
  have hstop : rest.takeWhile p = [] ∧ rest.dropWhile p = rest := by
    cases rest with
    | nil => exact ⟨rfl, rfl⟩
    | cons c rest =>
      have hc : p c = false := hrest c rfl
      exact ⟨List.takeWhile_cons_of_neg (by simp [hc]), List.dropWhile_cons_of_neg (by simp [hc])⟩
  rw [List.takeWhile_append_of_pos hrun, List.dropWhile_append_of_pos hrun, hstop.1, hstop.2,
    List.append_nil]
  exact ⟨rfl, rfl⟩

theorem AmountText.endsAt_append_iff {a : AmountText} {l : List Char} (hl : l ≠ [])
    (rest : List Char) : a.EndsAt (l ++ rest) ↔ a.EndsAt l := by
  cases a with
  | digits ds =>
    unfold EndsAt
    rw [List.head?_append_of_ne_nil l hl]
  | star => exact Iff.rfl

theorem AmountText.readAmount_chars {a : AmountText} {rest : List Char} (h : a.EndsAt rest) :
    readAmount (a.chars ++ rest) = (a.amount, rest) := by
  cases a with
  | star => rfl
  | digits ds =>
    obtain ⟨honly, hdigit, hnone⟩ := h
    obtain ⟨htake, hdrop⟩ := span_run honly hdigit
    have hstar : ∀ tail, ds ++ rest ≠ '*' :: tail := by
      intro tail heq
      cases ds with
      | nil => exact hnone rfl (by rw [List.nil_append] at heq; rw [heq]; rfl)
      | cons c ds =>
        obtain rfl := (List.cons.inj heq).1
        exact absurd (honly '*' List.mem_cons_self) (by decide)
    show readAmount (ds ++ rest) = _
    rw [readAmount.eq_2 _ (fun tail heq => hstar tail heq), htake, hdrop]
    rfl

theorem readPrecision_text {p : Option AmountText} {rest : List Char}
    (hnone : p = none → rest.head? ≠ some '.') (hsome : ∀ a ∈ p, a.EndsAt rest) :
    readPrecision (precisionText p ++ rest) = (p.map AmountText.amount, rest) := by
  cases p with
  | none =>
    have hpoint : ∀ tail, rest ≠ '.' :: tail := by
      rintro tail rfl
      exact hnone rfl rfl
    exact readPrecision.eq_2 _ fun tail heq => hpoint tail heq
  | some a =>
    show (some (readAmount (a.chars ++ rest)).1, (readAmount (a.chars ++ rest)).2) = _
    rw [AmountText.readAmount_chars (hsome a rfl)]
    rfl

/-- A directive is read up to its conversion character, whatever follows. -/
theorem DirectiveText.readDirective?_chars (d : DirectiveText) (rest : List Char) :
    readDirective? (d.chars ++ rest) = some (d.directive, rest) := by
  have hmodified : d.modifiers ++ [d.conversion] ≠ [] := by simp
  have hbehind : precisionText d.precision ++ (d.modifiers ++ [d.conversion]) ≠ [] := by simp
  have hflagged : d.width.chars ++
      (precisionText d.precision ++ (d.modifiers ++ [d.conversion])) ≠ [] := by simp
  have hflags := d.flagsEnd
  rw [← @List.head?_append_of_ne_nil _ _ rest hflagged] at hflags
  obtain ⟨htake, hdrop⟩ := span_run d.onlyFlags hflags
  have hwidth := AmountText.readAmount_chars
    ((AmountText.endsAt_append_iff hbehind rest).mpr d.widthEnds)
  have hprecision : readPrecision (precisionText d.precision ++
      (d.modifiers ++ [d.conversion] ++ rest)) =
      (d.precision.map AmountText.amount, d.modifiers ++ [d.conversion] ++ rest) := by
    refine readPrecision_text ?_ fun p hp => ?_
    · rw [List.head?_append_of_ne_nil _ hmodified]
      exact d.pointEnds
    · exact (AmountText.endsAt_append_iff hmodified rest).mpr (d.precisionEnds p hp)
  have hconversion : (d.modifiers ++ [d.conversion] ++ rest).dropWhile isLengthModifier =
      d.conversion :: rest := by
    rw [List.append_assoc]
    refine (span_run d.onlyModifiers fun c hc => ?_).2
    cases hc
    exact d.modifiersEnd
  simp only [List.append_assoc] at htake hdrop hwidth hprecision hconversion
  simp only [readDirective?, chars, List.append_assoc, htake, hdrop, hwidth, hprecision,
    hconversion]
  rfl

/-- A piece is read as what it is, whatever follows. -/
theorem Piece.parse_chars (p : Piece) (rest : List Char) :
    parse (p.chars ++ rest) = p.item :: parse rest := by
  cases p with
  | plain c noPercent => exact parse.eq_4 c rest (fun _ h _ => noPercent h) noPercent
  | percent => exact parse.eq_2 rest
  | directive d noPercent =>
    have hread := d.readDirective?_chars rest
    have hpercent : ∀ tail, d.chars ++ rest ≠ '%' :: tail := by
      intro tail h
      have hne : d.chars ≠ [] := by simp [DirectiveText.chars]
      have hhead : (d.chars ++ rest).head? = some '%' := by rw [h]; rfl
      rw [List.head?_append_of_ne_nil d.chars hne] at hhead
      exact noPercent hhead
    show parse ('%' :: (d.chars ++ rest)) = _
    rw [parse.eq_3 _ fun tail h => hpercent tail h]
    split
    · rename_i hsome
      rw [hread] at hsome
      cases hsome
      rfl
    · rename_i hnone
      rw [hread] at hnone
      cases hnone

/-! Any string is a complete one, with a directive behind it that breaks off or nothing. -/

theorem exists_amountText (cs : List Char) :
    ∃ a : AmountText, cs = a.chars ++ (readAmount cs).2 ∧ a.EndsAt (readAmount cs).2 := by
  unfold readAmount
  split
  · exact ⟨.star, rfl, trivial⟩
  · rename_i hstar
    have hcut := List.takeWhile_append_dropWhile (p := Char.isDigit) (l := cs)
    refine ⟨.digits (cs.takeWhile Char.isDigit), hcut.symm, ?_, ?_, fun hnil hhead => ?_⟩
    · exact fun c hc => List.mem_takeWhile_imp hc
    · intro c hc
      have hnot := List.head?_dropWhile_not Char.isDigit cs
      rw [hc] at hnot
      exact hnot
    · rw [hnil, List.nil_append] at hcut
      obtain ⟨tail, htail⟩ := List.head?_eq_some_iff.mp (hcut ▸ hhead)
      exact hstar tail htail

theorem exists_precisionText (cs : List Char) :
    ∃ p, cs = precisionText p ++ (readPrecision cs).2 ∧
      (p = none → (readPrecision cs).2.head? ≠ some '.') ∧
      ∀ a ∈ p, a.EndsAt (readPrecision cs).2 := by
  unfold readPrecision
  split
  · rename_i rest
    obtain ⟨a, ha, hends⟩ := exists_amountText rest
    refine ⟨some a, congrArg ('.' :: ·) ha, nofun, fun b hb => ?_⟩
    cases hb
    exact hends
  · rename_i hpoint
    refine ⟨none, rfl, fun _ hhead => ?_, nofun⟩
    obtain ⟨tail, htail⟩ := List.head?_eq_some_iff.mp hhead
    exact hpoint tail htail

/-- What is read as a directive is the text of one. -/
theorem exists_directiveText {cs rest : List Char} {d : Directive}
    (h : readDirective? cs = some (d, rest)) : ∃ t : DirectiveText, cs = t.chars ++ rest := by
  simp only [readDirective?] at h
  split at h
  · rename_i conversion rest hconversion
    cases h
    obtain ⟨w, hw, hwEnds⟩ := exists_amountText (cs.dropWhile isFlag)
    obtain ⟨p, hp, hpNone, hpEnds⟩ := exists_precisionText (readAmount (cs.dropWhile isFlag)).2
    generalize (readPrecision (readAmount (cs.dropWhile isFlag)).2).2 = behind at *
    generalize (readAmount (cs.dropWhile isFlag)).2 = behindWidth at *
    -- each part ends in the text of the directive as it ends in the whole string
    have hbehind := List.takeWhile_append_dropWhile (p := isLengthModifier) (l := behind)
    have hcut := List.takeWhile_append_dropWhile (p := isFlag) (l := cs)
    rw [hconversion] at hbehind
    generalize hm : behind.takeWhile isLengthModifier = modifiers at hbehind
    have hmodified : modifiers ++ [conversion] ≠ [] := by simp
    have hprecise : precisionText p ++ (modifiers ++ [conversion]) ≠ [] := by simp
    have hflagged : w.chars ++ (precisionText p ++ (modifiers ++ [conversion])) ≠ [] := by simp
    have hend : modifiers ++ [conversion] ++ rest = behind := by simp [hbehind]
    have hwidthEnd : precisionText p ++ (modifiers ++ [conversion]) ++ rest = behindWidth := by
      rw [List.append_assoc, hend, ← hp]
    have hflagsEnd : w.chars ++ (precisionText p ++ (modifiers ++ [conversion])) ++ rest =
        cs.dropWhile isFlag := by
      rw [List.append_assoc, hwidthEnd, ← hw]
    have hflag : ∀ c, (w.chars ++ (precisionText p ++ (modifiers ++ [conversion]))).head? =
        some c → isFlag c = false := by
      intro c hc
      have hnot := List.head?_dropWhile_not isFlag cs
      rw [← hflagsEnd, List.head?_append_of_ne_nil _ hflagged, hc] at hnot
      exact hnot
    have hpoint : p = none → (modifiers ++ [conversion]).head? ≠ some '.' := by
      rw [← @List.head?_append_of_ne_nil _ _ rest hmodified, hend]
      exact hpNone
    have hmodifier : isLengthModifier conversion = false := by
      have hnot := List.head?_dropWhile_not isLengthModifier behind
      rw [hconversion] at hnot
      exact hnot
    refine ⟨{
      flags := cs.takeWhile isFlag
      width := w
      precision := p
      modifiers := modifiers
      conversion := conversion
      onlyFlags := fun c hc => List.mem_takeWhile_imp hc
      flagsEnd := hflag
      widthEnds := (AmountText.endsAt_append_iff hprecise rest).mp (hwidthEnd ▸ hwEnds)
      pointEnds := hpoint
      precisionEnds := fun a ha =>
        (AmountText.endsAt_append_iff hmodified rest).mp (hend ▸ hpEnds a ha)
      onlyModifiers := fun c hc => List.mem_takeWhile_imp (hm ▸ hc)
      modifiersEnd := hmodifier }, ?_⟩
    show cs = cs.takeWhile isFlag ++
      (w.chars ++ (precisionText p ++ (modifiers ++ [conversion]))) ++ rest
    rw [List.append_assoc, hflagsEnd, hcut]
  · cases h

/-- Any string is complete up to where it ends or a directive breaks off. -/
theorem exists_pieces (cs : List Char) :
    ∃ (ps : List Piece) (rest : List Char), cs = ps.flatMap Piece.chars ++ rest ∧
      (rest = [] ∨ ∃ tail, rest = '%' :: tail ∧ tail.head? ≠ some '%' ∧
        readDirective? tail = none) := by
  have hpercent : ∀ rest : List Char, (∀ tail, rest = '%' :: tail → False) →
      rest.head? ≠ some '%' := by
    intro rest hnone hhead
    obtain ⟨tail, htail⟩ := List.head?_eq_some_iff.mp hhead
    exact hnone tail htail
  fun_induction parse cs with
  | case1 => exact ⟨[], [], rfl, .inl rfl⟩
  | case2 rest ih =>
    obtain ⟨ps, rest, rfl, hrest⟩ := ih
    exact ⟨.percent :: ps, rest, rfl, hrest⟩
  | case3 rest hnone d rest' hread ih =>
    obtain ⟨t, rfl⟩ := exists_directiveText hread
    obtain ⟨ps, rest, rfl, hrest⟩ := ih
    have hne : t.chars ≠ [] := by simp [DirectiveText.chars]
    have hhead := hpercent _ hnone
    rw [List.head?_append_of_ne_nil _ hne] at hhead
    exact ⟨.directive t hhead :: ps, rest, by simp [Piece.chars], hrest⟩
  | case4 rest hnone hread => exact ⟨[], _, rfl, .inr ⟨rest, rfl, hpercent _ hnone, hread⟩⟩
  | case5 c rest hnone hc ih =>
    obtain ⟨ps, rest, rfl, hrest⟩ := ih
    exact ⟨.plain c hc :: ps, rest, rfl, hrest⟩

theorem parse_pieces (ps : List Piece) (rest : List Char) :
    parse (ps.flatMap Piece.chars ++ rest) = ps.map Piece.item ++ parse rest := by
  induction ps with
  | nil => rfl
  | cons p ps ih =>
    rw [List.flatMap_cons, List.append_assoc, p.parse_chars, ih]
    rfl

/-! Expanding. -/

/-- How many arguments an item takes. -/
def Item.arity : Item → Nat
  | plain _ => 0
  | directive d => d.arity

theorem Piece.arity_item (p : Piece) : p.item.arity = p.arguments := by
  cases p with
  | plain | percent => rfl
  | directive d =>
    show d.width.amount.arity +
      ((d.precision.map AmountText.amount).map Amount.arity).getD 0 + 1 = _
    rw [Option.map_map, d.width.arity_amount]
    have hcomp : Amount.arity ∘ AmountText.amount = AmountText.stars :=
      funext AmountText.arity_amount
    rw [hcomp]
    rfl

/-- An amount takes its argument even where there is none or one of another kind. -/
theorem Amount.resolve_snd (a : Amount) (args : List Expr) :
    (a.resolve args).2 = args.drop a.arity := by
  cases a with
  | given => rfl
  | star => exact List.drop_one.symm

/-- A directive takes its arguments whatever they are. -/
theorem Directive.expand_snd (names : SymbolTable) (d : Directive) (args : List Expr) :
    (d.expand names args).2 = args.drop d.arity := by
  unfold Directive.expand Directive.arity
  cases d.precision with
  | none =>
    simp only [Amount.resolve_snd, ← List.drop_one, List.drop_drop]
    rfl
  | some p =>
    simp only [Amount.resolve_snd, ← List.drop_one, List.drop_drop]
    rfl

/-- Items are expanded one after another, each with what those before it have left. -/
theorem expandItems_append (names : SymbolTable) (xs ys : List Item) (args : List Expr) :
    expandItems names (xs ++ ys) args =
      expandItems names xs args ++ expandItems names ys (args.drop (xs.map Item.arity).sum) := by
  induction xs generalizing args with
  | nil => rfl
  | cons x xs ih =>
    cases x with
    | plain c =>
      simp only [List.cons_append, expandItems, ih, List.map_cons, List.sum_cons, Item.arity,
        Nat.zero_add]
    | directive d =>
      simp only [List.cons_append, expandItems, ih, List.map_cons, List.sum_cons, Item.arity,
        d.expand_snd, List.drop_drop, List.append_assoc]

/-- A complete string expands alike whatever follows it, and what follows gets the arguments behind
a number that the string alone tells. -/
theorem expansion_composes {f : String} (hf : Complete f) :
    ∃ n, (∀ ps, Spell ps f → n = (ps.map Piece.arguments).sum) ∧
      ∀ names g args, expand names (f ++ g) args =
        expand names f args ++ expand names g (args.drop n) := by
  have hparse : ∀ ps, Spell ps f → ∀ rest,
      parse (f.toList ++ rest) = ps.map Piece.item ++ parse rest := by
    intro ps hps rest
    rw [hps]
    exact parse_pieces ps rest
  have hself : ∀ ps, Spell ps f → parse f.toList = ps.map Piece.item := by
    intro ps hps
    have hnil := hparse ps hps []
    rwa [List.append_nil, parse.eq_1, List.append_nil] at hnil
  refine ⟨((parse f.toList).map Item.arity).sum, fun ps hps => ?_, fun names g args => ?_⟩
  · have harity : Item.arity ∘ Piece.item = Piece.arguments := funext Piece.arity_item
    rw [hself ps hps, List.map_map, harity]
  · obtain ⟨ps, hps⟩ := hf
    rw [expand, expand, expand, String.toList_append, hparse ps hps, ← hself ps hps,
      expandItems_append, String.ofList_append]

/-- A width from an argument, and a conversion that there is none of. -/
def widthThenNothing : List Piece :=
  [.directive {
      flags := ['-']
      width := .star
      precision := none
      modifiers := ['h']
      conversion := 'd'
      onlyFlags := by simp [isFlag]
      flagsEnd := by simp [AmountText.chars, isFlag]
      widthEnds := trivial
      pointEnds := by simp
      precisionEnds := by simp
      onlyModifiers := by simp [isLengthModifier]
      modifiersEnd := by decide } (by decide),
    .percent,
    .directive {
      flags := []
      width := .digits ['5']
      precision := some (.digits [])
      modifiers := []
      conversion := '%'
      onlyFlags := by simp
      flagsEnd := by simp [AmountText.chars, isFlag]
      widthEnds := by simp [AmountText.EndsAt, precisionText]
      pointEnds := by simp
      precisionEnds := by simp [AmountText.EndsAt]
      onlyModifiers := by simp
      modifiersEnd := by decide } (by decide)]

theorem composes_widthThenNothing : Complete "%-*hd%%%5.%" ∧
    ∀ names g args, expand names ("%-*hd%%%5.%" ++ g) args =
      expand names "%-*hd%%%5.%" args ++ expand names g (args.drop 3) := by
  have hspell : Spell widthThenNothing "%-*hd%%%5.%" := by decide
  obtain ⟨n, hn, hcomposes⟩ := expansion_composes ⟨_, hspell⟩
  have hthree : n = 3 := hn _ hspell
  exact ⟨⟨_, hspell⟩, hthree ▸ hcomposes⟩

end GotoCheck.Format
