import Mathlib.Data.List.TakeWhile
import GotoCheck.Proofs.Text.Lines
import GotoCheck.Trace.Report

/-! Reports of traces. The numbers of the steps in a trace never decrease, and so it is enough that
a report remembers the last number it has opened: what is printed falls into one block for each
state that shows, which begins with its header and its first assignment. The first failed assertion
is the last thing that is printed. -/
namespace GotoCheck

namespace Trace
variable {t : Trace} {s u v : Step} {before rest : List Step}

/-- The step is not numbered below the last one. -/
def Accepts (t : Trace) (s : Step) : Prop := ∀ last ∈ t.steps.getLast?, last.number ≤ s.number

theorem push_of_accepts (h : t.Accepts s) : t.push s = .ok ⟨t.steps ++ [s]⟩ := by
  unfold push
  cases hlast : t.steps.getLast? with
  | none => simp [List.getLast?_eq_none_iff.mp hlast]
  | some last =>
    have hle : last.number ≤ s.number := h last hlast
    exact if_neg (Nat.not_lt.mpr hle)

theorem push_of_not_accepts (h : ¬t.Accepts s) :
    ∃ last ∈ t.steps.getLast?, t.push s = .error (.decreasing last.number s.number) := by
  unfold Accepts at h
  simp only [not_forall] at h
  obtain ⟨last, hlast, hlt⟩ := h
  refine ⟨last, hlast, ?_⟩
  unfold push
  rw [Option.mem_def] at hlast
  simp only [hlast]
  exact if_pos (Nat.lt_of_not_le hlt)

theorem pushAll_cons_of_accepts (h : t.Accepts s) :
    t.pushAll (s :: rest) = pushAll ⟨t.steps ++ [s]⟩ rest := by
  simp only [pushAll, push_of_accepts h]

theorem pushAll_cons_of_not_accepts (h : ¬t.Accepts s) :
    t.pushAll (s :: rest) = t.pushAll rest := by
  obtain ⟨last, -, hpush⟩ := push_of_not_accepts h
  simp only [pushAll, hpush]

theorem pushAll_concat (t : Trace) (pushed : List Step) (s : Step) :
    t.pushAll (pushed ++ [s]) = (t.pushAll pushed).pushAll [s] := by
  induction pushed generalizing t with
  | nil => rfl
  | cons u rest ih =>
    rw [List.cons_append]
    by_cases hu : t.Accepts u
    · rw [pushAll_cons_of_accepts hu, pushAll_cons_of_accepts hu]
      exact ih _
    · rw [pushAll_cons_of_not_accepts hu, pushAll_cons_of_not_accepts hu]
      exact ih t

theorem Ascending.push_of_accepts (ht : t.Ascending) (h : t.Accepts s) :
    Ascending ⟨t.steps ++ [s]⟩ := by
  refine List.pairwise_append.mpr ⟨ht, List.pairwise_singleton _ _, ?_⟩
  intro u hu v hv
  cases List.mem_singleton.mp hv
  -- no step is numbered above the last one
  have hne : t.steps ≠ [] := List.ne_nil_of_mem hu
  have hlast : u.number ≤ (t.steps.getLast hne).number := by
    unfold Ascending at ht
    rw [← List.dropLast_concat_getLast hne] at hu ht
    rcases List.mem_append.mp hu with hbefore | heq
    · exact (List.pairwise_append.mp ht).2.2 u hbefore _ (List.mem_singleton_self _)
    · simp [List.mem_singleton.mp heq]
  exact Nat.le_trans hlast (h _ (List.getLast?_eq_some_getLast hne))

/-- However often steps are pushed, the numbers ascend. -/
theorem Ascending.pushAll (ht : t.Ascending) (pushed : List Step) :
    (t.pushAll pushed).Ascending := by
  induction pushed generalizing t with
  | nil => exact ht
  | cons s rest ih =>
    by_cases h : t.Accepts s
    · rw [pushAll_cons_of_accepts h]
      exact ih (ht.push_of_accepts h)
    · rw [pushAll_cons_of_not_accepts h]
      exact ih ht

end Trace

namespace Step
variable {s : Step}

/-- An assignment that shows: one by an assignment, by a return, or by other code that names no
left-hand side. -/
structure Assigns (s : Step) : Prop where
  kind : s.kind = .assignment
  made : (∃ target source, s.instruction.statement = .assign target source) ∨
    (∃ operand, s.instruction.statement = .returns operand) ∨
    (∃ code, s.instruction.statement = .other code) ∧ s.lhs = none

theorem isShown_iff : s.isShown ↔ s.Assigns := by
  have hmade : (s.instruction.isAssign || s.instruction.isReturn ||
      (s.instruction.isOther && s.lhs.isNone)) ↔
      (∃ target source, s.instruction.statement = .assign target source) ∨
        (∃ operand, s.instruction.statement = .returns operand) ∨
        (∃ code, s.instruction.statement = .other code) ∧ s.lhs = none := by
    unfold Instruction.isAssign Instruction.isReturn Instruction.isOther
    cases s.instruction.statement <;> simp
  unfold isShown
  rw [Bool.and_eq_true, hmade, decide_eq_true_eq]
  exact ⟨fun h => ⟨h.1, h.2⟩, fun h => ⟨h.kind, h.made⟩⟩

end Step

/-! The lines that are printed. -/

namespace Step

/-- A blank line, the number of the state with the place and the thread, the active functions, a
rule. -/
def headerLines (s : Step) : List String :=
  "" :: ("State " ++ s.number.repr ++ " " ++ s.instruction.location.text ++ " thread " ++
    s.thread.repr) :: (s.stack ++ [rule])

def assignmentLine (names : SymbolTable) (lhs value : Option Expr) : String :=
  "  " ++ targetText names lhs ++ "=" ++ valueText names value

/-- The lines of a step that is no failed assertion. -/
def lines (names : SymbolTable) (s : Step) : List String :=
  match s.kind with
  | .assignment => if s.isShown then [assignmentLine names (s.sourceLhs.or s.lhs) s.value] else []
  | .output => [Format.expand names s.format s.arguments]
  | .renumber => ["Renumbered pointer to " ++ assignmentLine names s.lhs s.value]
  | .assert | .assume | .skip => []

/-- The property that fails, its place if that is known, the comment, the condition if the
instruction is an assertion, a blank line. -/
def violationLines (names : SymbolTable) (s : Step) : List String :=
  let location := s.instruction.location
  "Violated property:" :: ((if location.isUnknown then [] else ["  " ++ location.text]) ++
    ("  " ++ s.comment) ::
      ((if s.instruction.isAssert then ["  " ++ s.instruction.guard.text names] else []) ++ [""]))

end Step

namespace ReportEntry
variable {s : Step} {names : SymbolTable}

theorem text_header : (header s).text names = Text.unlines s.headerLines := by
  have hopen : "\nState " = "" ++ "\n" ++ "State " := rfl
  unfold text Step.headerText Step.headerLines
  rw [hopen]
  simp only [Text.unlines, List.map_cons, List.map_append, List.map_nil, String.join_cons,
    String.join_append, String.join_nil, String.append_assoc, String.append_empty]

theorem text_assignment (hs : s.Assigns) :
    (assignment s).text names = Text.unlines (s.lines names) := by
  unfold text Step.lines
  rw [hs.kind, Step.isShown_iff.mpr hs]
  simp only [Step.assignmentText, Step.assignmentLine, Text.unlines, if_true, List.map_cons,
    List.map_nil, String.join_cons, String.join_nil, String.append_empty]

theorem text_output (hs : s.kind = .output) :
    (output s).text names = Text.unlines (s.lines names) := by
  unfold text Step.lines
  rw [hs]
  simp only [Text.unlines, List.map_cons, List.map_nil, String.join_cons, String.join_nil,
    String.append_empty]

theorem text_renumber (hs : s.kind = .renumber) :
    (renumber s).text names = Text.unlines (s.lines names) := by
  unfold text Step.lines
  rw [hs]
  simp only [Step.assignmentText, Step.assignmentLine, Text.unlines, List.map_cons, List.map_nil,
    String.join_cons, String.join_nil, String.append_assoc, String.append_empty]

theorem text_violation : (violation s).text names = Text.unlines (s.violationLines names) := by
  have hfirst : "Violated property:\n" = "Violated property:" ++ "\n" := rfl
  change s.violationText names = _
  unfold Step.violationText Step.violationLines
  dsimp only
  rw [hfirst]
  split <;> split <;>
    simp only [Text.unlines, List.map_cons, List.map_nil, List.map_append, String.join_cons,
      String.join_append, String.join_nil, String.append_assoc, String.append_empty,
      String.empty_append, List.nil_append]

end ReportEntry

/-! Blocks. -/

/-- A state in a report: the assignment that opens it, and the steps until the next one opens. -/
structure Block where
  opener : Step
  more : List Step

namespace Block

def steps (b : Block) : List Step := b.opener :: b.more

def number (b : Block) : Nat := b.opener.number

/-- The header stands right before the assignment that opens the state. -/
def lines (names : SymbolTable) (b : Block) : List String :=
  b.opener.headerLines ++ b.steps.flatMap (Step.lines names)

end Block

/-- The steps fall into a lead and blocks, where the state `opened` has its header already: in the
lead are no assignments but to it. -/
structure Blocks (opened : Option Nat) (steps lead : List Step) (blocks : List Block) : Prop where
  contents : steps = lead ++ blocks.flatMap Block.steps
  lead : ∀ u ∈ lead, u.Assigns → opened = some u.number
  opener : ∀ b ∈ blocks, b.opener.Assigns
  same : ∀ b ∈ blocks, ∀ u ∈ b.more, u.Assigns → u.number = b.number
  later : ∀ o ∈ opened, ∀ b ∈ blocks, o < b.number
  increasing : blocks.Pairwise fun b b' => b.number < b'.number

namespace Blocks
variable {opened : Option Nat} {s u : Step} {rest steps lead : List Step}
variable {b : Block} {blocks earlier afterwards : List Block}

theorem nil : Blocks opened [] [] [] where
  contents := rfl
  lead := by simp
  opener := by simp
  same := by simp
  later := by simp
  increasing := List.Pairwise.nil

/-- The step opens no state. -/
theorem leads (h : Blocks opened rest lead blocks) (hs : s.Assigns → opened = some s.number) :
    Blocks opened (s :: rest) (s :: lead) blocks where
  contents := by rw [h.contents, List.cons_append]
  lead := List.forall_mem_cons.mpr ⟨hs, h.lead⟩
  opener := h.opener
  same := h.same
  later := h.later
  increasing := h.increasing

/-- The assignment opens its state, and what has led is the rest of its block. -/
theorem opens (h : Blocks (some s.number) rest lead blocks) (hs : s.Assigns)
    (hopened : ∀ o ∈ opened, o < s.number) :
    Blocks opened (s :: rest) [] (⟨s, lead⟩ :: blocks) where
  contents := by rw [h.contents, List.flatMap_cons, List.nil_append, Block.steps, List.cons_append]
  lead := by simp
  opener := List.forall_mem_cons.mpr ⟨hs, h.opener⟩
  same := by
    refine List.forall_mem_cons.mpr ⟨fun u hu ha => ?_, h.same⟩
    exact (Option.some.inj (h.lead u hu ha)).symm
  later := by
    intro o ho
    have hlt : o < s.number := hopened o ho
    refine List.forall_mem_cons.mpr ⟨hlt, fun b hb => ?_⟩
    exact Nat.lt_trans hlt (h.later _ rfl b hb)
  increasing := h.increasing.cons fun b hb => h.later _ rfl b hb

/-- An assignment in a block belongs to the state of the block. -/
theorem number_eq (h : Blocks opened steps lead blocks) (hb : b ∈ blocks) (hu : u ∈ b.steps)
    (ha : u.Assigns) : u.number = b.number := by
  rcases List.mem_cons.mp hu with rfl | hu
  · rfl
  · exact h.same b hb u hu ha

/-- The states with a header are those with an assignment. -/
theorem exists_number_iff (h : Blocks none steps lead blocks) (n : Nat) :
    (∃ b ∈ blocks, b.number = n) ↔ ∃ s ∈ steps, s.Assigns ∧ s.number = n := by
  constructor
  · rintro ⟨b, hb, rfl⟩
    refine ⟨b.opener, ?_, h.opener b hb, rfl⟩
    rw [h.contents]
    refine List.mem_append_right _ (List.mem_flatMap.mpr ⟨b, hb, List.mem_cons_self⟩)
  · rintro ⟨s, hs, ha, rfl⟩
    rw [h.contents, List.mem_append, List.mem_flatMap] at hs
    rcases hs with hs | ⟨b, hb, hs⟩
    · cases h.lead s hs ha
    · exact ⟨b, hb, (h.number_eq hb hs ha).symm⟩

/-- A block opens with the first assignment of its state. -/
theorem opener_first (h : Blocks none steps lead (earlier ++ b :: afterwards))
    (hu : u ∈ lead ++ earlier.flatMap Block.steps) (ha : u.Assigns) : u.number < b.number := by
  rw [List.mem_append, List.mem_flatMap] at hu
  rcases hu with hu | ⟨b', hb', hu⟩
  · cases h.lead u hu ha
  · rw [h.number_eq (List.mem_append_left _ hb') hu ha]
    exact (List.pairwise_append.mp h.increasing).2.2 b' hb' b List.mem_cons_self

end Blocks

namespace Trace
variable {t : Trace} {v s : Step} {steps before rest : List Step} {opened : Option Nat}

/-- What is printed of the steps falls into blocks. -/
def PrintsBlocks (opened : Option Nat) (steps : List Step) : Prop :=
  ∃ lead blocks, Blocks opened steps lead blocks ∧ ∀ names,
    String.join ((entriesFrom opened steps).map (ReportEntry.text names)) =
      Text.unlines (lead.flatMap (Step.lines names) ++ blocks.flatMap (Block.lines names))

theorem PrintsBlocks.leads (h : PrintsBlocks opened rest) (shown : List ReportEntry)
    (hs : s.Assigns → opened = some s.number)
    (hentries : entriesFrom opened (s :: rest) = shown ++ entriesFrom opened rest)
    (hshown : ∀ names,
      String.join (shown.map (ReportEntry.text names)) = Text.unlines (s.lines names)) :
    PrintsBlocks opened (s :: rest) := by
  obtain ⟨lead, blocks, hblocks, htext⟩ := h
  refine ⟨s :: lead, blocks, hblocks.leads hs, fun names => ?_⟩
  rw [hentries, List.map_append, String.join_append, hshown, htext, List.flatMap_cons,
    List.append_assoc, Text.unlines_append (s.lines names)]

theorem PrintsBlocks.opens (h : PrintsBlocks (some s.number) rest) (hs : s.Assigns)
    (hopened : ∀ o ∈ opened, o < s.number)
    (hentries : entriesFrom opened (s :: rest) =
      .header s :: .assignment s :: entriesFrom (some s.number) rest) :
    PrintsBlocks opened (s :: rest) := by
  obtain ⟨lead, blocks, hblocks, htext⟩ := h
  refine ⟨[], ⟨s, lead⟩ :: blocks, hblocks.opens hs hopened, fun names => ?_⟩
  rw [hentries, List.map_cons, List.map_cons, String.join_cons, String.join_cons, htext,
    ReportEntry.text_header, ReportEntry.text_assignment hs, List.flatMap_nil, List.nil_append,
    List.flatMap_cons, Block.lines, Block.steps, List.flatMap_cons]
  simp only [Text.unlines_append, List.append_assoc]

/-- As long as no assertion fails, the report is in blocks. -/
theorem printsBlocks_of_safe (hsorted : steps.Pairwise fun s u => s.number ≤ u.number)
    (hopened : ∀ o ∈ opened, ∀ s ∈ steps, o ≤ s.number)
    (hsafe : ∀ s ∈ steps, s.isViolation = false) : PrintsBlocks opened steps := by
  induction steps generalizing opened with
  | nil => exact ⟨[], [], Blocks.nil, fun _ => rfl⟩
  | cons s rest ih =>
    obtain ⟨hle, hsorted⟩ := List.pairwise_cons.mp hsorted
    have hsafe' : ∀ u ∈ rest, u.isViolation = false :=
      fun u hu => hsafe u (List.mem_cons_of_mem _ hu)
    have hsame : PrintsBlocks opened rest :=
      ih hsorted (fun o ho u hu => hopened o ho u (List.mem_cons_of_mem _ hu)) hsafe'
    have hother (hne : s.kind ≠ .assignment) : s.Assigns → opened = some s.number :=
      fun ha => absurd ha.kind hne
    cases hkind : s.kind with
    | assert =>
      have hguard : s.guard := by
        have hs := hsafe s List.mem_cons_self
        simpa [Step.isViolation, hkind] using hs
      refine hsame.leads [] (hother (by simp [hkind])) ?_ fun names => ?_
      · simp [entriesFrom, hkind, hguard]
      · simp [Step.lines, hkind, Text.unlines]
    | assume | skip =>
      refine hsame.leads [] (hother (by simp [hkind])) ?_ fun names => ?_
      · simp [entriesFrom, hkind]
      · simp [Step.lines, hkind, Text.unlines]
    | output =>
      refine hsame.leads [.output s] (hother (by simp [hkind])) ?_ fun names => ?_
      · simp [entriesFrom, hkind]
      · simp [ReportEntry.text_output hkind]
    | renumber =>
      refine hsame.leads [.renumber s] (hother (by simp [hkind])) ?_ fun names => ?_
      · simp [entriesFrom, hkind]
      · simp [ReportEntry.text_renumber hkind]
    | assignment =>
      by_cases hshown : s.isShown
      · have hs : s.Assigns := Step.isShown_iff.mp hshown
        by_cases hopen : opened = some s.number
        · refine hsame.leads [.assignment s] (fun _ => hopen) ?_ fun names => ?_
          · simp [entriesFrom, hkind, hshown, hopen]
          · simp [ReportEntry.text_assignment hs]
        · have hnext : PrintsBlocks (some s.number) rest :=
            ih hsorted (fun o ho u hu => by cases ho; exact hle u hu) hsafe'
          refine hnext.opens hs (fun o ho => ?_) (by simp [entriesFrom, hkind, hshown, hopen])
          refine Nat.lt_of_le_of_ne (hopened o ho s List.mem_cons_self) fun heq => hopen ?_
          rw [← heq]
          exact ho
      · refine hsame.leads [] (fun ha => absurd (Step.isShown_iff.mpr ha) hshown) ?_
          fun names => ?_
        · simp [entriesFrom, hkind, hshown]
        · simp [Step.lines, hkind, hshown, Text.unlines]

/-- A failed assertion ends the report, whatever comes after it. -/
theorem entriesFrom_append_violation (hsafe : ∀ s ∈ before, s.isViolation = false)
    (hv : v.isViolation) : entriesFrom opened (before ++ v :: rest) =
      entriesFrom opened before ++ [.header v, .violation v] := by
  induction before generalizing opened with
  | nil =>
    obtain ⟨hkind, hguard⟩ : v.kind = .assert ∧ v.guard = false := by
      simpa [Step.isViolation] using hv
    simp [entriesFrom, hkind, hguard]
  | cons s before ih =>
    have hrest := fun opened => @ih opened fun u hu => hsafe u (List.mem_cons_of_mem _ hu)
    have hs := hsafe s List.mem_cons_self
    cases hkind : s.kind with
    | assert =>
      have hguard : s.guard := by simpa [Step.isViolation, hkind] using hs
      simp only [List.cons_append, entriesFrom, hkind, hguard, if_true, hrest]
    | assume | skip | output | renumber =>
      simp only [List.cons_append, entriesFrom, hkind, hrest]
    | assignment =>
      simp only [List.cons_append, entriesFrom, hkind, hrest]
      split
      · rfl
      · split <;> rfl

/-- The steps before the first failed assertion. -/
def beforeFailure (t : Trace) : List Step := t.steps.takeWhile fun s => !s.isViolation

/-- The first failed assertion. -/
def failure? (t : Trace) : Option Step := t.steps.find? Step.isViolation

/-- The trace up to the first failed assertion. -/
def upToFailure (t : Trace) : Trace := ⟨t.beforeFailure ++ t.failure?.toList⟩

/-- What a failed assertion adds to a report. -/
def closing (t : Trace) : List ReportEntry :=
  match t.failure? with
  | none => []
  | some v => [.header v, .violation v]

/-- The last lines of a report: the header of the failed assertion and what it violates. -/
def closingLines (names : SymbolTable) (t : Trace) : List String :=
  match t.failure? with
  | none => []
  | some v => v.headerLines ++ v.violationLines names

theorem text_closing (names : SymbolTable) (t : Trace) :
    String.join (t.closing.map (ReportEntry.text names)) = Text.unlines (t.closingLines names) := by
  unfold closing closingLines
  cases t.failure? with
  | none => rfl
  | some v =>
    rw [List.map_cons, List.map_cons, List.map_nil, String.join_cons, String.join_cons,
      ReportEntry.text_header, ReportEntry.text_violation, Text.unlines_append]
    simp

theorem not_isViolation_of_mem_beforeFailure {s : Step} (hs : s ∈ t.beforeFailure) :
    s.isViolation = false := by
  have := List.mem_takeWhile_imp hs
  simpa using this

theorem beforeFailure_of_failure?_none (h : t.failure? = none) : t.beforeFailure = t.steps := by
  refine List.takeWhile_eq_self_iff.mpr fun s hs => ?_
  have := List.find?_eq_none.mp h s hs
  simpa using this

theorem steps_of_failure? (h : t.failure? = some v) :
    v.isViolation ∧ ∃ rest, t.steps = t.beforeFailure ++ v :: rest := by
  refine ⟨List.find?_some h, ?_⟩
  unfold failure? at h
  rw [List.find?_eq_head?_dropWhile_not] at h
  obtain ⟨rest, hrest⟩ := List.head?_eq_some_iff.mp h
  exact ⟨rest, by rw [beforeFailure, ← hrest, List.takeWhile_append_dropWhile]⟩

theorem upToFailure_prefix : t.upToFailure.steps <+: t.steps := by
  unfold upToFailure
  cases h : t.failure? with
  | none => simp [beforeFailure_of_failure?_none h]
  | some v =>
    obtain ⟨-, rest, hsteps⟩ := steps_of_failure? h
    exact ⟨rest, by simp [hsteps]⟩

theorem entries_eq (t : Trace) : t.entries = entriesFrom none t.beforeFailure ++ t.closing := by
  unfold entries closing
  cases h : t.failure? with
  | none => rw [beforeFailure_of_failure?_none h, List.append_nil]
  | some v =>
    obtain ⟨hv, rest, hsteps⟩ := steps_of_failure? h
    rw [hsteps]
    exact entriesFrom_append_violation (fun s hs => not_isViolation_of_mem_beforeFailure hs) hv

theorem entries_upToFailure : t.upToFailure.entries = t.entries := by
  rw [entries_eq t, entries, upToFailure, closing]
  cases h : t.failure? with
  | none => rw [Option.toList_none, List.append_nil, List.append_nil]
  | some v =>
    have hv := (steps_of_failure? h).1
    exact entriesFrom_append_violation (fun s hs => not_isViolation_of_mem_beforeFailure hs) hv

theorem Ascending.beforeFailure (ht : t.Ascending) :
    t.beforeFailure.Pairwise fun s u => s.number ≤ u.number :=
  List.Pairwise.sublist (List.takeWhile_sublist _) ht

/-- A trace takes the steps that are not numbered below its last, and no others. Its report prints
the steps up to the first failed assertion in blocks: one for each state with an assignment, in
ascending order, which begins with the header of the state and its first assignment. The failed
assertion with a header of its own is the last thing printed. -/
theorem report_groups_states (pushed : List Step) :
    let t := empty.pushAll pushed
    (∀ s,
      (t.Accepts s ∧ t.push s = .ok ⟨t.steps ++ [s]⟩ ∧
        empty.pushAll (pushed ++ [s]) = ⟨t.steps ++ [s]⟩) ∨
      (¬t.Accepts s ∧
        (∃ last ∈ t.steps.getLast?, t.push s = .error (.decreasing last.number s.number)) ∧
        empty.pushAll (pushed ++ [s]) = t)) ∧
    t.Ascending ∧ t.upToFailure.steps <+: t.steps ∧
    ∃ lead blocks, Blocks none t.beforeFailure lead blocks ∧
      (∀ n, (∃ b ∈ blocks, b.number = n) ↔ ∃ s ∈ t.beforeFailure, s.Assigns ∧ s.number = n) ∧
      (∀ earlier b afterwards, blocks = earlier ++ b :: afterwards →
        ∀ u ∈ lead ++ earlier.flatMap Block.steps, u.Assigns → u.number < b.number) ∧
      ∀ names,
        t.report names = Text.unlines (lead.flatMap (Step.lines names) ++
          blocks.flatMap (Block.lines names) ++ t.closingLines names) ∧
        t.upToFailure.report names = t.report names := by
  intro t
  have ht : t.Ascending := Ascending.pushAll List.Pairwise.nil pushed
  obtain ⟨lead, blocks, hblocks, htext⟩ : PrintsBlocks none t.beforeFailure :=
    printsBlocks_of_safe ht.beforeFailure (fun _ ho => absurd ho (Option.not_mem_none _))
      fun s hs => not_isViolation_of_mem_beforeFailure hs
  refine ⟨fun s => ?_, ht, upToFailure_prefix, lead, blocks, hblocks, hblocks.exists_number_iff,
    ?_, fun names => ⟨?_, ?_⟩⟩
  · rw [pushAll_concat]
    by_cases h : t.Accepts s
    · exact .inl ⟨h, push_of_accepts h, pushAll_cons_of_accepts h⟩
    · exact .inr ⟨h, push_of_not_accepts h, pushAll_cons_of_not_accepts h⟩
  · rintro earlier b afterwards rfl u hu ha
    exact hblocks.opener_first hu ha
  · rw [report, entries_eq, List.map_append, String.join_append, htext, text_closing,
      ← Text.unlines_append]
  · rw [report, report, entries_upToFailure]

-- Hidden steps and refused ones open no state, and state 0 opens once like any other.
example :
    let skip := Instruction.ofStatement .skip
    let x := Expr.symbol "x" .int
    let sets (n : Nat) := Step.assignment (.assign x x) n x x
    let pushed := [sets 0, sets 0, .assumption skip 1 true, sets 2, sets 1, .assertion skip 2 true,
      sets 2, .assertion skip 3 false, sets 4]
    (empty.pushAll pushed).report .empty = Text.unlines
      ["", "State 0  thread 0", Step.rule, "  x=x", "  x=x",
        "", "State 2  thread 0", Step.rule, "  x=x", "  x=x",
        "", "State 3  thread 0", Step.rule, "Violated property:", "  ", ""] := by decide +kernel

end Trace
end GotoCheck
