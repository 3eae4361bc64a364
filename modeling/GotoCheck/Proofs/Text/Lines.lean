import GotoCheck.Text.Lines

/-! Lines and numbers that are written read back. Line feeds end lines, so a line survives unless it
holds one itself or ends in what would count as part of its end. -/
namespace GotoCheck.Text

/-- A text that can stand in a line of its own. -/
structure IsLine (s : String) : Prop where
  noFeed : '\n' ∉ s.toList
  noReturn : s.toList.getLast? ≠ some '\r'

instance (s : String) : Decidable (IsLine s) :=
  decidable_of_iff ('\n' ∉ s.toList ∧ s.toList.getLast? ≠ some '\r')
    ⟨fun h => ⟨h.1, h.2⟩, fun h => ⟨h.noFeed, h.noReturn⟩⟩

/-- The lines of a text, each with its line feed. -/
def unlines (ls : List String) : String := String.join (ls.map fun l => l ++ "\n")

theorem unlines_append (ls ms : List String) : unlines (ls ++ ms) = unlines ls ++ unlines ms := by
  rw [unlines, List.map_append, String.join_append, ← unlines, ← unlines]

theorem unlines_flatMap {α : Type} (f : α → List String) (xs : List α) :
    unlines (xs.flatMap f) = String.join (xs.map fun x => unlines (f x)) := by
  apply String.toList_inj.mp
  induction xs with
  | nil => rfl
  | cons x xs ih =>
    simp only [unlines, String.toList_join, List.flatMap_cons, List.map_append, List.map_cons,
      List.flatMap_append] at ih ⊢
    rw [ih]

/-- A text without its carriage return, if it ends in one. -/
def withoutReturn (s : String) : String := String.ofList (dropReturn s.toList)

theorem dropReturn_eq_self {l : List Char} (hl : l.getLast? ≠ some '\r') : dropReturn l = l :=
  if_neg hl

theorem dropReturn_append (l : List Char) {cs : List Char} (hcs : cs ≠ []) :
    dropReturn (l ++ cs) = l ++ dropReturn cs := by
  unfold dropReturn
  rw [List.getLast?_append, List.dropLast_append_of_ne_nil hcs]
  obtain ⟨c, hc⟩ := Option.isSome_iff_exists.mp (List.getLast?_isSome.mpr hcs)
  rw [hc, Option.some_or]
  split <;> rfl

theorem dropReturn_cons {c : Char} (hc : c ≠ '\r') (cs : List Char) :
    dropReturn (c :: cs) = c :: dropReturn cs := by
  by_cases hcs : cs = []
  · subst hcs
    exact dropReturn_eq_self (by simpa using hc)
  · exact dropReturn_append [c] hcs

theorem withoutReturn_eq_self {s : String} (hs : s.toList.getLast? ≠ some '\r') :
    withoutReturn s = s := by
  rw [withoutReturn, dropReturn_eq_self hs, String.ofList_toList]

theorem splitLines_ne_nil (cs : List Char) : splitLines cs ≠ [] := by
  fun_cases splitLines cs <;> simp

/-- A line feed parts the lines before it from those behind it. -/
theorem splitLines_append (cs ds : List Char) :
    splitLines (cs ++ '\n' :: ds) = splitLines cs ++ splitLines ds := by
  induction cs with
  | nil => rfl
  | cons c cs ih =>
    by_cases hc : c = '\n'
    · subst hc
      show [] :: splitLines (cs ++ '\n' :: ds) = [] :: splitLines cs ++ splitLines ds
      rw [ih, List.cons_append]
    · rw [List.cons_append, splitLines.eq_3 _ _ hc, splitLines.eq_3 _ _ hc, ih]
      cases hcs : splitLines cs with
      | nil => exact absurd hcs (splitLines_ne_nil cs)
      | cons l ls => rfl

theorem splitLines_of_noFeed {cs : List Char} (hcs : '\n' ∉ cs) : splitLines cs = [cs] := by
  induction cs with
  | nil => rfl
  | cons c cs ih =>
    have hc : c ≠ '\n' := fun h => hcs (h ▸ List.mem_cons_self)
    have hrest : '\n' ∉ cs := fun h => hcs (List.mem_cons_of_mem c h)
    rw [splitLines.eq_3 _ _ hc, ih hrest]

theorem lines_of_feed {s : String} {cs : List Char} (hs : s.toList = cs ++ ['\n']) :
    lines s = (splitLines cs).map fun l => String.ofList (dropReturn l) := by
  unfold lines
  rw [hs, splitLines_append]
  simp [splitLines]

/-- Behind a line end the lines are those of the text that follows. -/
theorem lines_append {a b : String} (ha : a = "" ∨ a.toList.getLast? = some '\n') :
    lines (a ++ b) = lines a ++ lines b := by
  rcases ha with rfl | ha
  · rw [String.empty_append]
    rfl
  · obtain ⟨cs, hcs⟩ := List.getLast?_eq_some_iff.mp ha
    have hb : splitLines b.toList ≠ [] := splitLines_ne_nil _
    have hparts : splitLines (a ++ b).toList = splitLines cs ++ splitLines b.toList := by
      rw [String.toList_append, hcs, List.append_assoc, List.singleton_append, splitLines_append]
    obtain ⟨l, hl⟩ := Option.isSome_iff_exists.mp (List.getLast?_isSome.mpr hb)
    have hlast : (splitLines cs ++ splitLines b.toList).getLast? = some l := by
      rw [List.getLast?_append, hl, Option.some_or]
    rw [lines_of_feed hcs]
    unfold lines
    rw [hparts]
    dsimp only
    rw [List.dropLast_append_of_ne_nil hb, List.map_append, hlast, hl]
    split
    · rfl
    · rfl
    · rw [List.append_assoc]

/-- Lines that are written are read, but for carriage returns at their ends. -/
theorem lines_unlines (ls : List String) (hls : ∀ l ∈ ls, '\n' ∉ l.toList) :
    lines (unlines ls) = ls.map withoutReturn := by
  induction ls with
  | nil => rfl
  | cons l ls ih =>
    have hl : '\n' ∉ l.toList := hls l List.mem_cons_self
    have hrest := ih fun m hm => hls m (List.mem_cons_of_mem l hm)
    have htext : unlines (l :: ls) = (l ++ "\n") ++ unlines ls := by
      apply String.toList_inj.mp
      simp [unlines, String.toList_join]
    have hfeed : (l ++ "\n").toList = l.toList ++ ['\n'] := String.toList_append
    have hend : (l ++ "\n").toList.getLast? = some '\n' := by rw [hfeed, List.getLast?_concat]
    rw [htext, lines_append (.inr hend), lines_of_feed hfeed, splitLines_of_noFeed hl, hrest]
    rfl

/-- The digits of a number read back. -/
theorem ofDigitChars_repr (n : Nat) : Nat.ofDigitChars 10 n.repr.toList 0 = n := by
  rw [Nat.toList_repr]
  exact Nat.ofDigitChars_toDigits (by decide) (by decide)

theorem repr_injective : Function.Injective Nat.repr := fun m n h => by
  rw [← ofDigitChars_repr m, h, ofDigitChars_repr n]

/-- A number of 32 bits in decimal digits, perhaps with a plus sign before them. -/
def Spells (s : String) (n : Nat) : Prop :=
  ∃ digits : List Char, digits ≠ [] ∧ (∀ c ∈ digits, c.isDigit) ∧
    (s.toList = digits ∨ s.toList = '+' :: digits) ∧
    n = Nat.ofDigitChars 10 digits 0 ∧ n < 4294967296

/-- A number without its plus sign. -/
def unsigned : List Char → List Char
  | '+' :: digits => digits
  | digits => digits

theorem unsigned_eq_iff {cs digits : List Char} (hdigits : ∀ c ∈ digits, c.isDigit) :
    unsigned cs = digits ↔ cs = digits ∨ cs = '+' :: digits := by
  unfold unsigned
  split
  · rename_i rest
    have hsign : '+' :: rest ≠ digits := by
      rintro rfl
      exact absurd (hdigits '+' List.mem_cons_self) (by decide)
    simp [hsign]
  · rename_i hsign
    have hne : cs ≠ '+' :: digits := fun h => hsign digits h
    simp [hne]

theorem word32?_eq (s : String) : word32? s =
    if (unsigned s.toList).isEmpty || !(unsigned s.toList).all Char.isDigit then none
    else if Nat.ofDigitChars 10 (unsigned s.toList) 0 < 4294967296 then
      some (Nat.ofDigitChars 10 (unsigned s.toList) 0)
    else none := rfl

theorem word32?_eq_some_iff {s : String} {n : Nat} : word32? s = some n ↔ Spells s n := by
  rw [word32?_eq]
  constructor
  · intro h
    split at h
    · cases h
    · rename_i hform
      split at h
      · rename_i hsize
        cases h
        simp only [Bool.or_eq_true, not_or, List.isEmpty_iff, Bool.not_eq_true', Bool.not_eq_false,
          List.all_eq_true] at hform
        exact ⟨_, hform.1, hform.2, (unsigned_eq_iff hform.2).mp rfl, rfl, hsize⟩
      · cases h
  · rintro ⟨digits, hne, hdigits, hs, rfl, hsize⟩
    have hform : ¬(digits.isEmpty || !digits.all Char.isDigit) := by
      simpa [hne] using hdigits
    rw [(unsigned_eq_iff hdigits).mpr hs, if_neg hform, if_pos hsize]

theorem isDigit_of_mem_repr {n : Nat} {c : Char} (h : c ∈ n.repr.toList) : c.isDigit := by
  rw [Nat.toList_repr] at h
  exact Nat.isDigit_of_mem_toDigits (by decide) (by decide) h

theorem spells_repr {n : Nat} (hn : n < 4294967296) : Spells n.repr n := by
  have hne : n.repr.toList ≠ [] := by
    rw [Nat.toList_repr]
    exact Nat.toDigits_ne_nil
  exact ⟨n.repr.toList, hne, fun _ => isDigit_of_mem_repr, .inl rfl, (ofDigitChars_repr n).symm, hn⟩

theorem isLine_of_digits {s : String} (hs : ∀ c ∈ s.toList, c.isDigit) : IsLine s where
  noFeed := fun h => absurd (hs '\n' h) (by decide)
  noReturn := fun h => absurd (hs '\r' (List.mem_of_getLast? h)) (by decide)

theorem isLine_repr (n : Nat) : IsLine n.repr := isLine_of_digits fun _ => isDigit_of_mem_repr

end GotoCheck.Text
