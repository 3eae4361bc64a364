import GotoCheck.SymbolName

/-! Names of program variables, said in terms of the parts of a name: no temporary mark inside it,
no return mark at its end, no internal mark at the start of its last part. -/
namespace GotoCheck

theorem Text.occursIn_iff_isInfix {part cs : List Char} : occursIn part cs ↔ part <:+: cs := by
  induction cs with
  | nil => simp [occursIn]
  | cons c cs ih =>
    rw [occursIn, Bool.or_eq_true, ih, List.isPrefixOf_iff_prefix, List.infix_cons_iff]

namespace SymbolName

/-- The part `p` of a name follows its last double colon. -/
def LastPart (cs p : List Char) : Prop :=
  (cs = p ∧ ¬ [':', ':'] <:+: cs) ∨
    ∃ q, cs = q ++ ':' :: ':' :: p ∧ ¬ [':', ':'] <:+: ':' :: p

/-- A symbol of the checked program, not one that the tools made up. -/
def ProgramName (name : String) : Prop :=
  ¬ temporaryMark.toList <:+: name.toList ∧ ¬ returnMark.toList <:+ name.toList ∧
    ∀ p, LastPart name.toList p → ¬ internalMark.toList <+: p

/-- A double colon further on decides the last part alone. -/
theorem lastPart_cons_iff {c : Char} {cs p : List Char} (h : [':', ':'] <:+: cs) :
    LastPart (c :: cs) p ↔ LastPart cs p := by
  constructor
  · intro hx
    rcases hx with ⟨rfl, hno⟩ | ⟨q, hq, hno⟩
    · exact absurd (List.infix_cons h) hno
    · cases q with
      | nil =>
        obtain ⟨-, rfl⟩ := List.cons.inj hq
        exact absurd h hno
      | cons d q =>
        obtain ⟨-, rfl⟩ := List.cons.inj hq
        exact .inr ⟨q, rfl, hno⟩
  · intro hx
    rcases hx with ⟨rfl, hno⟩ | ⟨q, rfl, hno⟩
    · exact absurd h hno
    · exact .inr ⟨c :: q, rfl, hno⟩

theorem lastPart_eq_iff {cs p : List Char} : LastPart cs p ↔ lastPart cs = p := by
  induction cs with
  | nil => simp [LastPart, lastPart]
  | cons c cs ih =>
    rw [lastPart]
    split
    · rename_i hin
      exact (lastPart_cons_iff (Text.occursIn_iff_isInfix.mp hin)).trans ih
    · rename_i hout
      have hno : ¬ [':', ':'] <:+: cs := fun h => hout (Text.occursIn_iff_isInfix.mpr h)
      -- the text after the first character holds no double colon, so the last one starts here or
      -- nowhere
      have hlater (q : List Char) : cs ≠ q ++ ':' :: ':' :: p := by
        intro heq
        subst heq
        exact hno ⟨q, p, by simp⟩
      split
      · rename_i hc
        obtain ⟨rfl, hhead⟩ := hc
        obtain ⟨t, rfl⟩ : ∃ t, cs = ':' :: t := List.head?_eq_some_iff.mp hhead
        constructor
        · intro hx
          rcases hx with ⟨-, hnone⟩ | ⟨q, hq, -⟩
          · exact absurd ⟨[], t, rfl⟩ hnone
          · cases q with
            | nil => exact (List.cons.inj (List.cons.inj hq).2).2
            | cons d q => exact absurd (List.cons.inj hq).2 (hlater q)
        · intro heq
          subst heq
          exact .inr ⟨[], rfl, hno⟩
      · rename_i hc
        constructor
        · intro hx
          rcases hx with ⟨h, -⟩ | ⟨q, hq, -⟩
          · exact h
          · cases q with
            | nil =>
              obtain ⟨rfl, rfl⟩ := List.cons.inj hq
              exact absurd ⟨rfl, rfl⟩ hc
            | cons d q => exact absurd (List.cons.inj hq).2 (hlater q)
        · intro heq
          subst heq
          refine .inl ⟨rfl, fun hin => ?_⟩
          rcases List.infix_cons_iff.mp hin with hpre | htail
          · obtain ⟨rfl, t, rfl⟩ := List.cons_prefix_cons.mp hpre
            exact hc ⟨rfl, rfl⟩
          · exact hno htail

theorem isProgramVariable_iff {name : String} : isProgramVariable name ↔ ProgramName name := by
  simp only [isProgramVariable, Bool.and_eq_true, Bool.not_eq_true', ← Bool.not_eq_true,
    isTemporary, Text.contains, Text.occursIn_iff_isInfix, isReturnSlot,
    List.isSuffixOf_iff_suffix, isInternal, List.isPrefixOf_iff_prefix, and_assoc, ProgramName,
    lastPart_eq_iff, forall_eq']

end SymbolName
end GotoCheck
