import GotoCheck.Proofs.CalledCode
import GotoCheck.Proofs.Extract

/-! The walk over called code. While a body is being read its function is busy; every other function
met and no longer pending has had its whole body noted. At the end nothing is pending, so what was
met is closed under calls and what was noted is all that may be written. -/
namespace GotoCheck.ModifiedWalk
variable {table : FunctionTable} {function : String} {code : List Instruction}
variable {w w' w₁ w₂ : ModifiedWalk}

/-- A walk only adds to what it has met and noted. -/
structure Grows (w w' : ModifiedWalk) : Prop where
  visited : w.visited ⊆ w'.visited
  names : w.modified.names ⊆ w'.modified.names

theorem Grows.refl (w : ModifiedWalk) : Grows w w := ⟨List.Subset.refl _, List.Subset.refl _⟩

theorem Grows.trans (h : Grows w w₁) (h₁ : Grows w₁ w₂) : Grows w w₂ :=
  ⟨List.Subset.trans h.visited h₁.visited, List.Subset.trans h.names h₁.names⟩

/-- All that an instruction calls has been met, and all that it writes noted. -/
structure Covers (w : ModifiedWalk) (i : Instruction) : Prop where
  calls : ∀ n, i.Calls n → n ∈ w.visited
  writes : ∀ n, i.WritesVariable n → n ∈ w.modified.names

theorem Covers.mono {i : Instruction} (h : Covers w i) (hg : Grows w w') : Covers w' i :=
  ⟨fun n hn => hg.visited (h.calls n hn), fun n hn => hg.names (h.writes n hn)⟩

def CoversBody (table : FunctionTable) (w : ModifiedWalk) (n : String) : Prop :=
  ∀ f, table.get? n = some f → f.isAvailable → ∀ i ∈ f.body.instructions, Covers w i

theorem CoversBody.mono {n : String} (h : CoversBody table w n) (hg : Grows w w') :
    CoversBody table w' n :=
  fun f hf ha i hi => (h f hf ha i hi).mono hg

/-- The invariant of the walk over `code` of `function`, with the bodies of `busy` half read. -/
structure Walking (table : FunctionTable) (function : String) (code : List Instruction)
    (busy : List String) (w : ModifiedWalk) : Prop where
  own : function ∈ w.visited
  called : ∀ n ∈ w.visited, n ≠ function → Called table function code n ∧ (table.get? n).isSome
  pending : ∀ n ∈ w.pending, n ∈ w.visited ∧ n ≠ function
  closed : ∀ n ∈ w.visited, n ≠ function → n ∈ w.pending ∨ n ∈ busy ∨ CoversBody table w n
  written : ∀ n ∈ w.modified.names, MayWrite table function code n
  ordered : w.modified.Ordered

/-- A walk ends as said, or names a function that the code leads to and the table lacks. -/
def Ends (table : FunctionTable) (function : String) (code : List Instruction)
    (P : ModifiedWalk → Prop) : Except ProgramError ModifiedWalk → Prop
  | .ok w => P w
  | .error e => ∃ n, e = .missingFunction n ∧ Called table function code n ∧ table.get? n = none

theorem Ends.imp {P Q : ModifiedWalk → Prop} {r : Except ProgramError ModifiedWalk}
    (h : Ends table function code P r) (hPQ : ∀ w, P w → Q w) : Ends table function code Q r := by
  cases r with
  | ok w => exact hPQ w h
  | error e => exact h

theorem walking_start : Walking table function code [] (start function) where
  own := List.mem_cons_self
  called _ hn hne := absurd (List.mem_singleton.mp hn) hne
  pending _ hn := absurd hn List.not_mem_nil
  closed _ hn hne := absurd (List.mem_singleton.mp hn) hne
  written _ hn := absurd hn List.not_mem_nil
  ordered := List.Pairwise.nil

section Steps
variable {busy : List String} {i : Instruction}

theorem grows_note : Grows w (w.note i) :=
  ⟨List.Subset.refl _, fun _ hn => NameMap.mem_names_foldl_insertNew.mpr (.inr hn)⟩

theorem Walking.note (h : Walking table function code busy w)
    (hi : Executed table function code i) : Walking table function code busy (w.note i) where
  own := h.own
  called := h.called
  pending := h.pending
  closed := by
    intro n hn hne
    refine (h.closed n hn hne).imp_right (Or.imp_right ?_)
    intro hbody
    exact hbody.mono grows_note
  written := by
    intro n hn
    rcases NameMap.mem_names_foldl_insertNew.mp hn with hn | hn
    · exact ⟨i, hi, Instruction.mem_modified_names_iff.mp hn⟩
    · exact h.written n hn
  ordered := h.ordered.foldl_insertNew

/-- A function met for the first time becomes pending, so nothing has to be known of its body. -/
theorem Walking.push {n : String} (h : Walking table function code busy w)
    (hn : Called table function code n) (hne : n ≠ function) (hsome : (table.get? n).isSome) :
    Walking table function code busy
      { w with visited := n :: w.visited, pending := n :: w.pending } where
  own := List.mem_cons_of_mem n h.own
  called := by
    intro m hm hmf
    rcases List.mem_cons.mp hm with rfl | hm
    · exact ⟨hn, hsome⟩
    · exact h.called m hm hmf
  pending := by
    intro m hm
    rcases List.mem_cons.mp hm with rfl | hm
    · exact ⟨List.mem_cons_self, hne⟩
    · exact ⟨List.mem_cons_of_mem n (h.pending m hm).1, (h.pending m hm).2⟩
  closed := by
    intro m hm hmf
    rcases List.mem_cons.mp hm with rfl | hm
    · exact .inl List.mem_cons_self
    · rcases h.closed m hm hmf with hp | hb | hbody
      · exact .inl (List.mem_cons_of_mem n hp)
      · exact .inr (.inl hb)
      · have hg : Grows w { w with visited := n :: w.visited, pending := n :: w.pending } :=
          ⟨List.subset_cons_self n w.visited, List.Subset.refl _⟩
        exact .inr (.inr (hbody.mono hg))
  written := h.written
  ordered := h.ordered

theorem scan_ends (h : Walking table function code busy w) (hi : Executed table function code i) :
    Ends table function code
      (fun w' => Walking table function code busy w' ∧ Grows w w' ∧ Covers w' i)
      (w.scan table i) := by
  have hnote := h.note hi
  have hwrites : ∀ n, i.WritesVariable n → n ∈ (w.note i).modified.names := fun n hn =>
    NameMap.mem_names_foldl_insertNew.mpr (.inl (Instruction.mem_modified_names_iff.mpr hn))
  unfold scan
  split
  · rename_i n hcallee
    have hcalls := Instruction.callee?_eq_some_iff.mp hcallee
    have honly : ∀ m, i.Calls m → m = n := by
      intro m hm
      rw [← Instruction.callee?_eq_some_iff, hcallee] at hm
      exact (Option.some.inj hm).symm
    unfold take
    split
    · rename_i hv
      have hv : n ∈ (w.note i).visited := List.contains_iff_mem.mp hv
      exact ⟨hnote, grows_note, fun m hm => honly m hm ▸ hv, hwrites⟩
    · rename_i hv
      have hv : n ∉ (w.note i).visited := fun hm => hv (List.contains_iff_mem.mpr hm)
      have hne : n ≠ function := fun he => hv (he ▸ h.own)
      have hcalled := hi.called hcalls hne
      split
      · rename_i hnone
        exact ⟨n, rfl, hcalled, Option.isNone_iff_eq_none.mp hnone⟩
      · rename_i hsome
        have hsome : (table.get? n).isSome := by
          rw [Option.isSome_iff_ne_none]
          simpa using hsome
        refine ⟨hnote.push hcalled hne hsome, ?_, ?_, hwrites⟩
        · exact grows_note.trans ⟨List.subset_cons_self n _, List.Subset.refl _⟩
        · intro m hm
          rw [honly m hm]
          exact List.mem_cons_self
  · rename_i hnone
    refine ⟨hnote, grows_note, fun m hm => ?_, hwrites⟩
    rw [← Instruction.callee?_eq_some_iff, hnone] at hm
    cases hm

theorem scanAll_ends {is : List Instruction} (h : Walking table function code busy w)
    (his : ∀ i ∈ is, Executed table function code i) :
    Ends table function code
      (fun w' => Walking table function code busy w' ∧ Grows w w' ∧ ∀ i ∈ is, Covers w' i)
      (scanAll table w is) := by
  induction is generalizing w with
  | nil => exact ⟨h, .refl w, fun i hi => absurd hi List.not_mem_nil⟩
  | cons i rest ih =>
    -- what the first instruction calls and writes stays known while the rest is scanned
    have hscan := scan_ends h (his i List.mem_cons_self)
    unfold scanAll
    cases hr : w.scan table i with
    | error e => rwa [hr] at hscan
    | ok w₁ =>
      rw [hr] at hscan
      obtain ⟨hw₁, hg₁, hi⟩ := hscan
      refine (ih hw₁ fun j hj => his j (List.mem_cons_of_mem i hj)).imp ?_
      intro w₂ hx
      obtain ⟨hw₂, hg₂, hrest⟩ := hx
      refine ⟨hw₂, hg₁.trans hg₂, fun j hj => ?_⟩
      rcases List.mem_cons.mp hj with rfl | hj
      · exact hi.mono hg₂
      · exact hrest j hj

/-- Taking a function from the pending ones leaves it busy. -/
theorem Walking.pop {n : String} {rest : List String} (h : Walking table function code [] w)
    (hp : w.pending = n :: rest) :
    Walking table function code [n] { w with pending := rest } where
  own := h.own
  called := h.called
  pending m hm := h.pending m (hp ▸ List.mem_cons_of_mem n hm)
  closed := by
    intro m hm hmf
    rcases h.closed m hm hmf with hpend | hb | hbody
    · rw [hp] at hpend
      rcases List.mem_cons.mp hpend with rfl | hpend
      · exact .inr (.inl List.mem_cons_self)
      · exact .inl hpend
    · cases hb
    · have hg : Grows w { w with pending := rest } := ⟨List.Subset.refl _, List.Subset.refl _⟩
      exact .inr (.inr (hbody.mono hg))
  written := h.written
  ordered := h.ordered

/-- A busy function is done when its body, if there is one, is covered. -/
theorem Walking.done {n : String} (h : Walking table function code [n] w)
    (hn : CoversBody table w n) : Walking table function code [] w :=
  { h with
    closed := by
      intro m hm hmf
      rcases h.closed m hm hmf with hpend | hb | hbody
      · exact .inl hpend
      · cases List.mem_singleton.mp hb
        exact .inr (.inr hn)
      · exact .inr (.inr hbody) }

theorem Walking.called_of_pending {n : String} {rest : List String}
    (h : Walking table function code [] w) (hp : w.pending = n :: rest) :
    Called table function code n ∧ (table.get? n).isSome := by
  have hmem := h.pending n (hp ▸ List.mem_cons_self)
  exact h.called n hmem.1 hmem.2

theorem body_ends {n : String} {rest : List String} {f : FunctionEntry}
    (h : Walking table function code [] w) (hp : w.pending = n :: rest)
    (hf : table.get? n = some f) (ha : f.isAvailable) :
    Ends table function code (fun w' => Walking table function code [] w' ∧ Grows w w')
      (scanAll table { w with pending := rest } f.body.instructions) := by
  have hcalled := (h.called_of_pending hp).1
  have hscan := scanAll_ends (h.pop hp) fun i hi => .inr ⟨n, f, hcalled, hf, ha, hi⟩
  apply hscan.imp
  intro w₁ hx
  obtain ⟨hw₁, hg₁, hcov⟩ := hx
  have hbody : CoversBody table w₁ n := by
    intro g hg _ i hi
    rw [hf] at hg
    cases hg
    exact hcov i hi
  exact ⟨hw₁.done hbody, hg₁.visited, hg₁.names⟩

theorem finish_ends (h : Walking table function code [] w) :
    Ends table function code
      (fun w' => Walking table function code [] w' ∧ Grows w w' ∧ w'.pending = [])
      (w.finish table) := by
  fun_induction finish table w with
  | case1 w hp => exact ⟨h, .refl w, hp⟩
  | case2 w n rest hp hnone =>
    -- a pending function was in the table when it was taken up
    have hsome := (h.called_of_pending hp).2
    rw [hnone] at hsome
    cases hsome
  | case3 w n rest hp f hf ha w₁ hs ih =>
    have hscan := body_ends h hp hf ha
    rw [hs] at hscan
    obtain ⟨hw₁, hg₁⟩ := hscan
    apply (ih hw₁).imp
    intro w₂ hx
    obtain ⟨hw₂, hg₂, hnil⟩ := hx
    exact ⟨hw₂, hg₁.trans hg₂, hnil⟩
  | case4 w n rest hp f hf ha e hs =>
    have hscan := body_ends h hp hf ha
    rwa [hs] at hscan
  | case5 w n rest hp f hf ha ih =>
    -- a function without a body has nothing to cover
    have hbody : CoversBody table { w with pending := rest } n := by
      intro g hg hga
      rw [hf] at hg
      cases hg
      exact absurd hga ha
    apply (ih ((h.pop hp).done hbody)).imp
    intro w₂ hx
    obtain ⟨hw₂, hg₂, hnil⟩ := hx
    exact ⟨hw₂, ⟨hg₂.visited, hg₂.names⟩, hnil⟩

theorem walkAll_ends {is : List Instruction} (h : Walking table function code [] w)
    (hp : w.pending = []) (his : ∀ i ∈ is, i ∈ code) :
    Ends table function code
      (fun w' => Walking table function code [] w' ∧ Grows w w' ∧ w'.pending = [] ∧
        ∀ i ∈ is, Covers w' i)
      (walkAll table w is) := by
  induction is generalizing w with
  | nil => exact ⟨h, .refl w, hp, fun i hi => absurd hi List.not_mem_nil⟩
  | cons i rest ih =>
    have hscan := scan_ends h (.inl (his i List.mem_cons_self))
    unfold walkAll walk
    cases hr : w.scan table i with
    | error e => rwa [hr] at hscan
    | ok w₁ =>
      rw [hr] at hscan
      obtain ⟨hw₁, hg₁, hi⟩ := hscan
      have hfinish := finish_ends hw₁
      dsimp only
      cases hr₁ : w₁.finish table with
      | error e => rwa [hr₁] at hfinish
      | ok w₂ =>
        rw [hr₁] at hfinish
        obtain ⟨hw₂, hg₂, hnil⟩ := hfinish
        refine (ih hw₂ hnil fun j hj => his j (List.mem_cons_of_mem i hj)).imp ?_
        intro w₃ hx
        obtain ⟨hw₃, hg₃, hnil₃, hrest⟩ := hx
        refine ⟨hw₃, (hg₁.trans hg₂).trans hg₃, hnil₃, fun j hj => ?_⟩
        rcases List.mem_cons.mp hj with rfl | hj
        · exact hi.mono (hg₂.trans hg₃)
        · exact hrest j hj

end Steps

/-- What was met by a finished walk is closed under calls, so it holds all that the code
leads to. -/
theorem Walking.visited_of_called {n : String} (h : Walking table function code [] w)
    (hp : w.pending = []) (hcode : ∀ i ∈ code, Covers w i) (hn : Called table function code n) :
    n ∈ w.visited := by
  induction hn with
  | direct hi hc _ => exact (hcode _ hi).calls _ hc
  | @through m n f i hm hf ha hi hc _ ih =>
    -- the calling function was met by induction, and nothing is pending or busy any more
    rcases h.closed m ih hm.ne_function with hpend | hb | hbody
    · rw [hp] at hpend
      cases hpend
    · cases hb
    · exact (hbody f hf ha i hi).calls n hc

theorem Walking.covers_of_executed {i : Instruction} (h : Walking table function code [] w)
    (hp : w.pending = []) (hcode : ∀ i ∈ code, Covers w i)
    (hi : Executed table function code i) : Covers w i := by
  rcases hi with hi | ⟨m, f, hm, hf, ha, hi⟩
  · exact hcode i hi
  · rcases h.closed m (h.visited_of_called hp hcode hm) hm.ne_function with hpend | hb | hbody
    · rw [hp] at hpend
      cases hpend
    · cases hb
    · exact hbody f hf ha i hi

/-- A finished walk has found exactly what the code may write, and the table holds every function
that the code leads to. -/
theorem walkAll_start (table : FunctionTable) (function : String) (code : List Instruction) :
    Ends table function code
      (fun w => (∀ n, Called table function code n → (table.get? n).isSome) ∧
        w.modified.Ordered ∧ ∀ n, n ∈ w.modified.names ↔ MayWrite table function code n)
      (walkAll table (start function) code) := by
  refine (walkAll_ends walking_start rfl fun i hi => hi).imp ?_
  intro w hx
  obtain ⟨hw, -, hp, hcode⟩ := hx
  refine ⟨fun n hn => ?_, hw.ordered, fun n => ⟨hw.written n, ?_⟩⟩
  · exact (hw.called n (hw.visited_of_called hp hcode hn) hn.ne_function).2
  · intro hx
    obtain ⟨i, hi, hn⟩ := hx
    exact (hw.covers_of_executed hp hcode hi).writes n hn

end GotoCheck.ModifiedWalk

/-! What the walk tells of a loop that is cut out. -/

namespace GotoCheck

/-- The names of `m` are those that the code may write, in ascending order, and the table holds
every function that the code leads to. -/
structure VariablesOf (table : FunctionTable) (function : String) (code : List Instruction)
    (m : NameMap Expr) : Prop where
  declared : ∀ n, Called table function code n → (table.get? n).isSome
  ordered : m.Ordered
  names : ∀ n, n ∈ m.names ↔ MayWrite table function code n

section Extract
variable {table : FunctionTable} {function : String} {body : Program} {head backEdge : Handle}
variable {s : Loop.Span} {tag : Nat}

theorem Loop.variablesOf_of_extract {l : Loop}
    (h : Loop.extract table function body head backEdge s tag = .ok l) :
    VariablesOf table function (body.between s.first s.last) l.modified := by
  obtain ⟨walk, hwalk, rfl⟩ := Loop.extract_eq_ok_iff.mp h
  have hends := ModifiedWalk.walkAll_start table function (body.between s.first s.last)
  rw [hwalk] at hends
  obtain ⟨hdeclared, hordered, hnames⟩ := hends
  exact ⟨hdeclared, hordered, hnames⟩

theorem Loop.missing_of_extract {e : ProgramError}
    (h : Loop.extract table function body head backEdge s tag = .error e) :
    ∃ n, e = .missingFunction n ∧ Called table function (body.between s.first s.last) n ∧
      table.get? n = none := by
  have hends := ModifiedWalk.walkAll_start table function (body.between s.first s.last)
  rw [Loop.extract_eq_error_iff.mp h] at hends
  exact hends

end Extract

end GotoCheck
