import Mathlib.Data.Nat.Find
import GotoCheck.Proofs.LoopHeads

/-! The variables of loops. A loop that is cut out knows exactly what its code may write, in the
stretch itself or in the functions called from there. -/
namespace GotoCheck.LoopSearch
variable {table : FunctionTable} {function : String} {body : Program} {k : Nat}

/-- The loop of a back edge at the place `k` leads to the function `n`, which the table lacks. -/
def LacksAt (table : FunctionTable) (function : String) (body : Program) (k : Nat) (n : String) :
    Prop :=
  ∃ first head, body.Reenters k head ∧ body.ids[first]? = some head ∧
    Called table function (body.between first k) n ∧ table.get? n = none

/-- The back edges up to the place `k` have one target each. -/
def SingleUpTo (body : Program) (k : Nat) : Prop :=
  ∀ j ≤ k, ∀ i, body.IsBackEdge j → body.instructions[j]? = some i → i.targets.length = 1

theorem LacksAt.fault {n : String} (h : LacksAt table function body k n)
    (hsingle : SingleUpTo body k) : ∃ e, Fault table function body k e := by
  obtain ⟨first, head, henters, hfirst, hcalled, hnone⟩ := h
  obtain ⟨i, hi, -, hmem⟩ := henters.jumpsTo
  obtain ⟨t, ht⟩ := List.length_eq_one_iff.mp (hsingle k (Nat.le_refl k) i henters.isBackEdge hi)
  rw [ht, List.mem_singleton] at hmem
  subst hmem
  exact ⟨_, .missing henters hi ht hfirst hcalled hnone⟩

theorem Fault.lacks {e : ProgramError} (h : Fault table function body k e)
    (hsingle : SingleUpTo body k) :
    ∃ n, e = .missingFunction n ∧ LacksAt table function body k n := by
  cases h with
  | malformed hedge _ hi hlength => exact absurd (hsingle k (Nat.le_refl k) _ hedge hi) hlength
  | missing henters _ _ hfirst hcalled hnone =>
    exact ⟨_, rfl, _, _, henters, hfirst, hcalled, hnone⟩

/-- The search through a numbered function stops at the first loop that leads to a missing
function, unless a back edge without its one target comes before. -/
theorem findLoops_of_lacksAt {t₀ : FunctionTable} {f : FunctionEntry} {n : String} {s : LoopSearch}
    (hwf : ∀ n f₀, t₀.get? n = some f₀ → f₀.body.WellFormed) (hok : t₀.update = (table, .ok ()))
    (hf : table.get? function = some f) (hlacks : LacksAt table function f.body k n)
    (hsingle : SingleUpTo f.body k) :
    ∃ j ≤ k, ∃ m, (s.findLoops table function).2 = .error (.missingFunction m) ∧
      LacksAt table function f.body j m ∧ ∀ i < j, ∀ u, ¬LacksAt table function f.body i u := by
  classical
  -- the search ends with the first fault, and up to `k` only missing functions are faults
  have hfault : ∃ k, ∃ e, Fault table function f.body k e := ⟨k, hlacks.fault hsingle⟩
  have hle : Nat.find hfault ≤ k := Nat.find_min' hfault (hlacks.fault hsingle)
  have hupTo : ∀ i ≤ k, SingleUpTo f.body i :=
    fun i hi j hj => hsingle j (Nat.le_trans hj hi)
  have hfirst : ¬FaultBefore table function f.body (Nat.find hfault) := by
    rintro ⟨i, hi, hbefore⟩
    exact Nat.find_min hfault hi hbefore
  have hsearched := findLoops_searched hf (FunctionTable.numbered_of_update hwf hok hf) s
  obtain ⟨⟨e, he, hrun⟩, -⟩ := hsearched.at_fault (Nat.find_spec hfault) hfirst
  obtain ⟨m, rfl, hm⟩ := he.lacks (hupTo _ hle)
  refine ⟨_, hle, m, hrun, hm, fun i hi u hu => ?_⟩
  exact hfirst ⟨i, hi, hu.fault (hupTo i (Nat.le_trans (Nat.le_of_lt hi) hle))⟩

/-- Every loop that is found names exactly the variables that its code may write. A search that
stops at a missing function names one that the code of some loop leads to, and so does every
attempt to cut out a loop that leads to a missing function. The search through a numbered function
stops so at the first such loop, unless a back edge without its one target comes before. -/
theorem findLoops_variables {table : FunctionTable} {function : String} {f : FunctionEntry}
    (hf : table.get? function = some f) (tag : Nat) :
    (∀ l ∈ ((start tag).findLoops table function).1.loops, ∃ first last,
      f.body.position? l.head = some first ∧ f.body.position? l.backEdge = some last ∧
        VariablesOf table function (f.body.between first last) l.modified) ∧
    (∀ n, ((start tag).findLoops table function).2 = .error (.missingFunction n) →
      ∃ head backEdge first last, f.body.position? head = some first ∧
        f.body.position? backEdge = some last ∧
        Called table function (f.body.between first last) n ∧ table.get? n = none) ∧
    (∀ head backEdge s tag' n, Called table function (f.body.between s.first s.last) n →
      table.get? n = none →
        ∃ m, Loop.extract table function f.body head backEdge s tag' = .error (.missingFunction m) ∧
          Called table function (f.body.between s.first s.last) m ∧ table.get? m = none) ∧
    ∀ t₀ : FunctionTable, (∀ n f₀, t₀.get? n = some f₀ → f₀.body.WellFormed) →
      t₀.update = (table, .ok ()) →
      ∀ k n, LacksAt table function f.body k n → SingleUpTo f.body k →
        ∃ j ≤ k, ∃ m, ((start tag).findLoops table function).2 = .error (.missingFunction m) ∧
          LacksAt table function f.body j m ∧ ∀ i < j, ∀ u, ¬LacksAt table function f.body i u := by
  have hsound := findLoops_sound hf tag
  refine ⟨?_, ?_, ?_, ?_⟩
  · intro l hl
    obtain ⟨_, _, _, s, _, -, hspan, hextract⟩ := hsound.found l hl
    obtain ⟨hhead, hback⟩ := Loop.span_eq_ok_iff.mp hspan
    exact ⟨s.first, s.last, hhead, hback, Loop.variablesOf_of_extract hextract⟩
  · intro n hn
    obtain ⟨_, _, head, backEdge, _, s, _, -, hspan, hextract⟩ := hsound.missing n hn
    obtain ⟨hhead, hback⟩ := Loop.span_eq_ok_iff.mp hspan
    obtain ⟨m, hm, hcalled, hnone⟩ := Loop.missing_of_extract hextract
    cases hm
    exact ⟨head, backEdge, s.first, s.last, hhead, hback, hcalled, hnone⟩
  · intro head backEdge s tag' n hn hnone
    cases hextract : Loop.extract table function f.body head backEdge s tag' with
    | error e =>
      obtain ⟨m, rfl, hcalled, hm⟩ := Loop.missing_of_extract hextract
      exact ⟨m, rfl, hcalled, hm⟩
    | ok l =>
      -- what is cut out leads to no missing function
      have := (Loop.variablesOf_of_extract hextract).declared n hn
      simp [hnone] at this
  · intro t₀ hwf hok k n hlacks hsingle
    exact findLoops_of_lacksAt hwf hok hf hlacks hsingle

/-- The main function loops over a call of a function that is not there. -/
def loopWithoutHelper : List (String × Program) :=
  [(Samples.mainName, Samples.counterLoop 0 "c::g")]

/-- The loop of its only back edge leads to that function. -/
theorem lacksAt_loopWithoutHelper :
    ∃ f, (Samples.tableOf loopWithoutHelper).get? Samples.mainName = some f ∧
      LacksAt (Samples.tableOf loopWithoutHelper) Samples.mainName f.body 4 "c::g" ∧
      SingleUpTo f.body 4 := by
  obtain ⟨f, hf⟩ : ∃ f, (Samples.tableOf loopWithoutHelper).get? Samples.mainName = some f :=
    Option.isSome_iff_exists.mp (by decide +kernel)
  have hplaces : ((Samples.tableOf loopWithoutHelper).get? Samples.mainName).map (fun f =>
      (f.body.ids[1]?, f.body.ids[4]?, f.body.instructions.all fun i =>
        !i.isGoto || i.targets.length == 1)) = some (some ⟨0, 1⟩, some ⟨0, 4⟩, true) := by
    decide +kernel
  have hcode : ((Samples.tableOf loopWithoutHelper).get? Samples.mainName).map (fun f =>
      ((f.body.between 1 4).map Instruction.callee?,
        f.body.instructions[4]?.map fun i => (i.isGoto, i.targets))) =
      some ([none, none, some "c::g"], some (true, [⟨0, 1⟩])) := by
    decide +kernel
  simp only [hf, Option.map_some, Prod.mk.injEq, Option.some.injEq] at hplaces hcode
  obtain ⟨hfirst, hlast, hgotos⟩ := hplaces
  obtain ⟨hcalls, hjump⟩ := hcode
  obtain ⟨i, hi, hjump⟩ := Option.map_eq_some_iff.mp hjump
  obtain ⟨hgoto, htargets⟩ := Prod.mk.inj hjump
  have hjumps : f.body.JumpsTo 4 ⟨0, 1⟩ := ⟨i, hi, hgoto, htargets ▸ List.mem_singleton_self _⟩
  obtain ⟨j, hj, hcall⟩ : ∃ j ∈ f.body.between 1 4, j.callee? = some "c::g" :=
    List.mem_map.mp (hcalls ▸ by decide)
  refine ⟨f, hf, ⟨1, ⟨0, 1⟩, ⟨⟨1, by decide, _, hfirst, hjumps⟩, hjumps, ?_⟩, hfirst, ?_, ?_⟩, ?_⟩
  · rw [hlast]
    decide
  · exact .direct hj (Instruction.callee?_eq_some_iff.mp hcall) (by decide)
  · exact Option.isNone_iff_eq_none.mp (by decide +kernel)
  · rintro k - i ⟨-, -, t, -, hjump⟩ hi
    have hall := List.all_eq_true.mp hgotos i (List.mem_of_getElem? hi)
    simpa [((Program.jumpsTo_iff_of_getElem? hi).mp hjump).1] using hall

/-- The loop at the places 1 to 4 calls one of two functions that call each other, and both write a
variable. Without these functions the search names one that the loop lacks. -/
theorem variables_of_mutualRecursion :
    (∃ f l, Samples.mutuallyRecursiveLoop.get? Samples.mainName = some f ∧
      ((start 7).findLoops Samples.mutuallyRecursiveLoop Samples.mainName).1.loops = [l] ∧
      f.body.position? l.head = some 1 ∧ f.body.position? l.backEdge = some 4 ∧
      l.modified.names = ["c::main::x", "c::y", "c::z"] ∧
      ∀ n, n ∈ ["c::main::x", "c::y", "c::z"] ↔
        MayWrite Samples.mutuallyRecursiveLoop Samples.mainName (f.body.between 1 4) n) ∧
    ∃ f m, (Samples.tableOf loopWithoutHelper).get? Samples.mainName = some f ∧
      ((start 7).findLoops (Samples.tableOf loopWithoutHelper) Samples.mainName).2 =
        .error (.missingFunction m) ∧
      ∃ j ≤ 4, LacksAt (Samples.tableOf loopWithoutHelper) Samples.mainName f.body j m := by
  constructor
  · have hrun : ((start 7).findLoops Samples.mutuallyRecursiveLoop Samples.mainName).1.loops.map
        (fun l => ((Samples.mutuallyRecursiveLoop.get? Samples.mainName).map fun f =>
          (f.body.position? l.head, f.body.position? l.backEdge), l.modified.names)) =
        [(some (some 1, some 4), ["c::main::x", "c::y", "c::z"])] := by
      decide +kernel
    obtain ⟨f, l, hf, hl, hhead, hback, hnames⟩ := exists_loop_of_map hrun
    obtain ⟨hfound, -⟩ := findLoops_variables hf 7
    obtain ⟨first, last, hfirst, hlast, hvars⟩ := hfound l (hl ▸ List.mem_singleton_self l)
    rw [hhead, Option.some.injEq] at hfirst
    rw [hback, Option.some.injEq] at hlast
    subst hfirst hlast
    exact ⟨f, l, hf, hl, hhead, hback, hnames, fun n => hnames ▸ hvars.names n⟩
  · have hwf : (FunctionTable.ofBodies loopWithoutHelper).WellFormed :=
      FunctionTable.wellFormed_ofBodies (by decide +kernel)
    have hok : (FunctionTable.ofBodies loopWithoutHelper).update =
        (Samples.tableOf loopWithoutHelper, .ok ()) :=
      FunctionTable.update_ofBodies (by decide +kernel)
    obtain ⟨f, hf, hlacks, hsingle⟩ := lacksAt_loopWithoutHelper
    obtain ⟨-, -, -, hstops⟩ := findLoops_variables hf 7
    obtain ⟨k, hk, m, hm, hfirst, -⟩ := hstops _ hwf.bodies hok 4 "c::g" hlacks hsingle
    exact ⟨f, m, hf, hm, k, hk, hfirst⟩

end GotoCheck.LoopSearch
