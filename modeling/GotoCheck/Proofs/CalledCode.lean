import GotoCheck.Loop.Modified
import GotoCheck.Proofs.Expr
import GotoCheck.Proofs.NameMap
import GotoCheck.Proofs.SymbolName

/-! What a piece of code may call and write, said without the walk that computes it. -/
namespace GotoCheck

namespace Instruction
variable {i : Instruction} {n : String}

/-- A call through a symbol; calls through pointers are not followed. -/
def Calls (i : Instruction) (n : String) : Prop :=
  ∃ result type arguments, i.statement = .call result (.symbol n type) arguments

def Writes (i : Instruction) (e : Expr) : Prop :=
  (∃ source, i.statement = .assign e source) ∨
    ∃ function arguments, i.statement = .call (some e) function arguments

/-- Some written expression names the program variable. -/
def WritesVariable (i : Instruction) (n : String) : Prop :=
  ∃ e type, i.Writes e ∧ Expr.Within (.symbol n type) e ∧ type.isCode = false ∧
    SymbolName.ProgramName n

theorem callee?_eq_some_iff : i.callee? = some n ↔ i.Calls n := by
  unfold callee? Calls
  split
  · rename_i r f args hs
    rw [hs]
    cases f <;> simp [Expr.symbolName?]
  · rename_i hs
    constructor
    · intro h; cases h
    · intro hx
      obtain ⟨r, t, args, hc⟩ := hx
      exact absurd hc (hs _ _ _)

theorem mem_written_iff {e : Expr} : e ∈ i.written ↔ i.Writes e := by
  unfold written Writes
  split
  · rename_i hs
    simp [hs, eq_comm]
  · rename_i hs
    simp [hs, eq_comm]
  · rename_i hassign hcall
    constructor
    · intro h; cases h
    · intro hx
      rcases hx with ⟨s, hs⟩ | ⟨f, args, hs⟩
      · exact absurd hs (hassign _ _)
      · exact absurd hs (hcall _ _ _)

theorem mem_namedVariables_iff {e v : Expr} :
    (n, v) ∈ e.namedVariables ↔ ∃ t, v = .symbol n t ∧ Expr.Within v e ∧ t.isCode = false := by
  simp only [Expr.namedVariables, List.mem_filterMap, List.mem_filter, Expr.mem_nodes_iff,
    Option.map_eq_some_iff, Prod.mk.injEq]
  constructor
  · intro hx
    obtain ⟨u, ⟨hu, hvar⟩, m, hm, rfl, rfl⟩ := hx
    cases u <;> cases hm
    exact ⟨_, rfl, hu, by simpa [Expr.isVariable] using hvar⟩
  · intro hx
    obtain ⟨t, rfl, hv, ht⟩ := hx
    exact ⟨_, ⟨hv, by simp [Expr.isVariable, ht]⟩, n, rfl, rfl, rfl⟩

theorem mem_modified_names_iff : n ∈ i.modified.map Prod.fst ↔ i.WritesVariable n := by
  simp only [modified, List.mem_map, List.mem_filter, List.mem_flatMap, mem_written_iff,
    SymbolName.isProgramVariable_iff]
  constructor
  · intro hx
    obtain ⟨⟨m, v⟩, ⟨⟨e, he, hv⟩, hname⟩, rfl⟩ := hx
    obtain ⟨t, rfl, hin, ht⟩ := mem_namedVariables_iff.mp hv
    exact ⟨e, t, he, hin, ht, hname⟩
  · intro hx
    obtain ⟨e, t, he, hin, ht, hname⟩ := hx
    exact ⟨(n, .symbol n t), ⟨⟨e, he, mem_namedVariables_iff.mpr ⟨t, rfl, hin, ht⟩⟩, hname⟩, rfl⟩

end Instruction

section Called
variable (table : FunctionTable) (function : String) (code : List Instruction)

/-- The functions that code of `function` leads to: called in it, or in the available body of a
function it leads to. The function itself is left out. -/
inductive Called : String → Prop
  | direct {i : Instruction} {n : String} :
      i ∈ code → i.Calls n → n ≠ function → Called n
  | through {m n : String} {f : FunctionEntry} {i : Instruction} :
      Called m → table.get? m = some f → f.isAvailable → i ∈ f.body.instructions → i.Calls n →
        n ≠ function → Called n

/-- The instructions of the code and of the functions it leads to. -/
def Executed (i : Instruction) : Prop :=
  i ∈ code ∨ ∃ m f, Called table function code m ∧ table.get? m = some f ∧ f.isAvailable ∧
    i ∈ f.body.instructions

def MayWrite (n : String) : Prop :=
  ∃ i, Executed table function code i ∧ i.WritesVariable n

theorem Called.ne_function {table : FunctionTable} {function : String} {code : List Instruction}
    {n : String} (h : Called table function code n) : n ≠ function := by
  cases h <;> assumption

theorem Executed.called {table : FunctionTable} {function : String} {code : List Instruction}
    {i : Instruction} {n : String} (h : Executed table function code i) (hc : i.Calls n)
    (hn : n ≠ function) : Called table function code n := by
  rcases h with hi | ⟨m, f, hm, hf, ha, hi⟩
  · exact .direct hi hc hn
  · exact .through hm hf ha hi hc hn

end Called
end GotoCheck
