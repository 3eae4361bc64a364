import Mathlib.Data.List.Induction
import Mathlib.Order.Bounds.Basic
import GotoCheck.Proofs.GivenHandles
import GotoCheck.Proofs.TableNumbers

/-! Loop numbers. Every back edge shares the next number with the head of its loop, and what stands
at an end of several loops keeps the number of the last. In a table the functions take their numbers
from one supply, so no two of them give the same. -/
namespace GotoCheck

namespace Program
variable {p q : Program} {b c g h : Handle} {i : Instruction} {k n start : Nat} {bs : List Handle}

/-- The first target of a back edge, which is taken for the head of its loop. -/
def headOf? (p : Program) (b : Handle) : Option Handle := (p.get? b).bind fun i => i.targets.head?

/-- The instruction is the back edge `b` or the head of its loop. -/
def Ends (p : Program) (b h : Handle) : Prop := h = b ∨ p.headOf? b = some h

/-- The loops with an end at the instruction, by the places of their back edges in a list. -/
def loopsAt (p : Program) (bs : List Handle) (h : Handle) : Set Nat :=
  {j | ∃ b, bs[j]? = some b ∧ p.Ends b h}

/-- What numbering the loops of `p` from `start` on makes of it. An instruction at an end of some
loop has the number of the last such loop, and nothing else changes. -/
structure LoopsNumbered (p : Program) (start : Nat) (q : Program) : Prop where
  tag : q.tag = p.tag
  issued : q.issued = p.issued
  ids : q.ids = p.ids
  instructions : ∀ (k : Nat) (h : Handle) (i : Instruction), p.ids[k]? = some h →
    p.instructions[k]? = some i →
    (∃ j, IsGreatest (p.loopsAt p.backwardsGotos h) j ∧
      q.instructions[k]? = some { i with loopNumber := start + j }) ∨
    p.loopsAt p.backwardsGotos h = ∅ ∧ q.instructions[k]? = some i

section Share

theorem getElem?_modify {f : Instruction → Instruction} (hk : p.ids[k]? = some h)
    (hi : p.instructions[k]? = some i) :
    (p.modify g f).instructions[k]? = some (if h = g then f i else i) := by
  rw [getElem?_ids] at hk
  obtain ⟨r, hr, rfl⟩ := Option.map_eq_some_iff.mp hk
  rw [getElem?_instructions, hr] at hi
  cases hi
  rw [getElem?_instructions, modify, List.getElem?_map, hr]
  dsimp only [Option.map_some]
  split <;> rfl

theorem ids_modify {f : Instruction → Instruction} : (p.modify g f).ids = p.ids :=
  ids_of_layout layout_modify

theorem shareLoopNumber_of_head (hc : p.headOf? b = some c) :
    p.shareLoopNumber b n =
      (p.modify c fun i => { i with loopNumber := n }).modify b
        fun i => { i with loopNumber := n } := by
  unfold headOf? at hc
  unfold shareLoopNumber
  simp only [hc]

theorem shareLoopNumber_of_no_head (hc : p.headOf? b = none) :
    p.shareLoopNumber b n = p.modify b fun i => { i with loopNumber := n } := by
  unfold headOf? at hc
  unfold shareLoopNumber
  simp only [hc]

theorem getElem?_shareLoopNumber_of_ends (hk : p.ids[k]? = some h)
    (hi : p.instructions[k]? = some i) (hh : p.Ends b h) :
    (p.shareLoopNumber b n).instructions[k]? = some { i with loopNumber := n } := by
  cases hc : p.headOf? b with
  | none =>
    have hb : h = b := hh.resolve_right (by rw [hc]; nofun)
    rw [shareLoopNumber_of_no_head hc, getElem?_modify hk hi, if_pos hb]
  | some c =>
    have hhead := getElem?_modify (g := c) (f := fun i => { i with loopNumber := n }) hk hi
    rw [shareLoopNumber_of_head hc, getElem?_modify (ids_modify ▸ hk) hhead]
    -- the head has the number from the first change already
    by_cases hb : h = b
    · rw [if_pos hb]
      split <;> rfl
    · have hhc : h = c := by
        rcases hh with hb' | hc'
        · exact absurd hb' hb
        · exact Option.some.inj (hc'.symm.trans hc)
      rw [if_neg hb, if_pos hhc]

theorem getElem?_shareLoopNumber_of_not_ends (hk : p.ids[k]? = some h)
    (hi : p.instructions[k]? = some i) (hh : ¬p.Ends b h) :
    (p.shareLoopNumber b n).instructions[k]? = some i := by
  have hb : h ≠ b := fun hb => hh (.inl hb)
  cases hc : p.headOf? b with
  | none => rw [shareLoopNumber_of_no_head hc, getElem?_modify hk hi, if_neg hb]
  | some c =>
    have hhc : h ≠ c := fun hhc => hh (.inr (hhc ▸ hc))
    have hhead := getElem?_modify (g := c) (f := fun i => { i with loopNumber := n }) hk hi
    rw [shareLoopNumber_of_head hc, getElem?_modify (ids_modify ▸ hk) hhead, if_neg hb, if_neg hhc]

theorem headOf?_modify {f : Instruction → Instruction} (hf : ∀ i, (f i).targets = i.targets) :
    (p.modify g f).headOf? b = p.headOf? b := by
  unfold headOf?
  rw [get?_modify]
  split
  · cases p.get? b with
    | none => rfl
    | some i =>
      rw [Option.map_some, Option.bind_some, Option.bind_some, hf]
  · rfl

theorem headOf?_shareLoopNumber : (p.shareLoopNumber c n).headOf? b = p.headOf? b := by
  have hsame : ∀ i : Instruction, { i with loopNumber := n }.targets = i.targets := fun _ => rfl
  cases hc : p.headOf? c with
  | none => rw [shareLoopNumber_of_no_head hc, headOf?_modify hsame]
  | some d => rw [shareLoopNumber_of_head hc, headOf?_modify hsame, headOf?_modify hsame]

end Share

section Pass

theorem lt_of_mem_loopsAt {j : Nat} (hj : j ∈ p.loopsAt bs h) : j < bs.length := by
  obtain ⟨b, hb, -⟩ := hj
  exact (List.getElem?_eq_some_iff.mp hb).1

theorem isGreatest_loopsAt_concat (hh : p.Ends b h) :
    IsGreatest (p.loopsAt (bs ++ [b]) h) bs.length where
  left := ⟨b, by rw [List.getElem?_concat_length], hh⟩
  right := by
    intro j hj
    have hlt := lt_of_mem_loopsAt hj
    rw [List.length_append, List.length_singleton] at hlt
    omega

theorem loopsAt_concat (hh : ¬p.Ends b h) : p.loopsAt (bs ++ [b]) h = p.loopsAt bs h := by
  ext j
  constructor
  · rintro ⟨c, hc, hends⟩
    rw [List.getElem?_append] at hc
    split at hc
    · exact ⟨c, hc, hends⟩
    · -- the last of the list is `b`
      rw [List.mem_singleton.mp (List.mem_of_getElem? hc)] at hends
      exact absurd hends hh
  · rintro ⟨c, hc, hends⟩
    have hlt : j < bs.length := (List.getElem?_eq_some_iff.mp hc).1
    exact ⟨c, by rw [List.getElem?_append_left hlt, hc], hends⟩

/-- The back edges of a list get the numbers from `start` on, one after the other. -/
def shareAlong (p : Program) (start : Nat) (bs : List Handle) : Program :=
  (bs.zipIdx start).foldl (fun q b => q.shareLoopNumber b.1 b.2) p

theorem shareAlong_concat : p.shareAlong start (bs ++ [b]) =
    (p.shareAlong start bs).shareLoopNumber b (start + bs.length) := by
  rw [shareAlong, List.zipIdx_append, List.foldl_append]
  rfl

theorem layout_shareAlong : (p.shareAlong start bs).layout = p.layout := by
  induction bs using List.reverseRecOn with
  | nil => rfl
  | append_singleton bs b ih => rw [shareAlong_concat, layout_shareLoopNumber, ih]

theorem headOf?_shareAlong : (p.shareAlong start bs).headOf? c = p.headOf? c := by
  induction bs using List.reverseRecOn with
  | nil => rfl
  | append_singleton bs b ih => rw [shareAlong_concat, headOf?_shareLoopNumber, ih]

/-- The last number that an instruction is given stays. -/
theorem getElem?_shareAlong (hk : p.ids[k]? = some h) (hi : p.instructions[k]? = some i) :
    (∃ j, IsGreatest (p.loopsAt bs h) j ∧
      (p.shareAlong start bs).instructions[k]? = some { i with loopNumber := start + j }) ∨
    p.loopsAt bs h = ∅ ∧ (p.shareAlong start bs).instructions[k]? = some i := by
  induction bs using List.reverseRecOn with
  | nil =>
    refine .inr ⟨?_, hi⟩
    ext j
    simp [loopsAt]
  | append_singleton bs b ih =>
    have hk' : (p.shareAlong start bs).ids[k]? = some h := by
      rw [ids_of_layout layout_shareAlong, hk]
    have hends : (p.shareAlong start bs).Ends b h ↔ p.Ends b h := by
      unfold Ends
      rw [headOf?_shareAlong]
    rw [shareAlong_concat]
    by_cases hh : p.Ends b h
    · -- whatever the number was before, the instruction now has that of `b`
      refine .inl ⟨bs.length, isGreatest_loopsAt_concat hh, ?_⟩
      rcases ih with ⟨j, -, hj⟩ | ⟨-, hj⟩
      · have hlast := getElem?_shareLoopNumber_of_ends (n := start + bs.length) hk' hj
          (hends.mpr hh)
        exact hlast
      · exact getElem?_shareLoopNumber_of_ends hk' hj (hends.mpr hh)
    · rw [loopsAt_concat hh]
      have hnot : ¬(p.shareAlong start bs).Ends b h := fun hx => hh (hends.mp hx)
      rcases ih with ⟨j, hgreatest, hj⟩ | ⟨hempty, hj⟩
      · exact .inl ⟨j, hgreatest, getElem?_shareLoopNumber_of_not_ends hk' hj hnot⟩
      · exact .inr ⟨hempty, getElem?_shareLoopNumber_of_not_ends hk' hj hnot⟩

theorem loopsNumbered_numberLoops (p : Program) (start : Nat) :
    p.LoopsNumbered start (p.numberLoops start) := by
  have hlayout : (p.numberLoops start).layout = p.layout := layout_numberLoops
  obtain ⟨htag, hissued, -⟩ := layout_eq_iff.mp hlayout
  exact {
    tag := htag
    issued := hissued
    ids := ids_of_layout hlayout
    instructions := fun _ _ _ hk hi => getElem?_shareAlong hk hi }

end Pass

end Program

namespace FunctionTable
variable {t : FunctionTable} {name m n : String} {f g : FunctionEntry} {start : Nat}
variable {before after es : List (String × FunctionEntry)}

/-- How many back edges there are in some functions. -/
def backEdgeCount (es : List (String × FunctionEntry)) : Nat :=
  (es.flatMap fun e => e.2.body.backwardsGotos).length

/-- The number that the first loop of a function gets: how many loops there are in the functions
with smaller names. -/
def loopStart (t : FunctionTable) (name : String) : Nat :=
  backEdgeCount (t.functions.entries.filter fun e => e.1 < name)

/-- What numbering the loops of a table makes of it. Each body is numbered by itself, and no number
is given in two of them, not even one that is replaced later on. -/
structure LoopsNumbered (t t' : FunctionTable) : Prop where
  names : t'.names = t.names
  bodies : ∀ name f, t.get? name = some f → ∃ body, t'.get? name = some { f with body } ∧
    f.body.LoopsNumbered (t.loopStart name) body
  apart : ∀ m n f g, m ≠ n → t.get? m = some f → t.get? n = some g → ∀ h u,
    ∀ j ∈ f.body.loopsAt f.body.backwardsGotos h, ∀ k ∈ g.body.loopsAt g.body.backwardsGotos u,
      t.loopStart m + j ≠ t.loopStart n + k

section Supply

/-- The pass over the loops. -/
def loopNumberedFrom (start : Nat) (es : List (String × FunctionEntry)) :
    List (String × FunctionEntry) :=
  countThrough (fun p start => (p.numberLoops start, p.backwardsGotos.length)) start es

theorem loopNumberedFrom_cons (start : Nat) (e : String × FunctionEntry)
    (rest : List (String × FunctionEntry)) : loopNumberedFrom start (e :: rest) =
      (e.1, { e.2 with body := e.2.body.numberLoops start }) ::
        loopNumberedFrom (start + e.2.body.backwardsGotos.length) rest := rfl

theorem backEdgeCount_cons (e : String × FunctionEntry) (rest : List (String × FunctionEntry)) :
    backEdgeCount (e :: rest) = e.2.body.backwardsGotos.length + backEdgeCount rest := by
  rw [backEdgeCount, List.flatMap_cons, List.length_append, backEdgeCount]

theorem backEdgeCount_append :
    backEdgeCount (before ++ after) = backEdgeCount before + backEdgeCount after := by
  rw [backEdgeCount, List.flatMap_append, List.length_append, backEdgeCount, backEdgeCount]

theorem loopNumberedFrom_append : loopNumberedFrom start (before ++ after) =
    loopNumberedFrom start before ++ loopNumberedFrom (start + backEdgeCount before) after := by
  induction before generalizing start with
  | nil => rfl
  | cons e rest ih =>
    rw [List.cons_append, loopNumberedFrom_cons, ih, loopNumberedFrom_cons, backEdgeCount_cons,
      List.cons_append, Nat.add_assoc]

theorem map_fst_loopNumberedFrom :
    (loopNumberedFrom start es).map Prod.fst = es.map Prod.fst := by
  induction es generalizing start with
  | nil => rfl
  | cons e rest ih => rw [loopNumberedFrom_cons, List.map_cons, ih, List.map_cons]

theorem names_numberLoops : t.numberLoops.names = t.names := map_fst_loopNumberedFrom

theorem ordered_numberLoops (ht : t.WellFormed) : t.numberLoops.functions.Ordered := by
  have hnames : t.numberLoops.functions.names = t.functions.names := names_numberLoops
  unfold NameMap.Ordered
  rw [hnames]
  exact ht.ordered

/-- The functions before a function have used up the numbers up to its own. -/
theorem get?_numberLoops (ht : t.WellFormed) (hf : t.get? name = some f) :
    t.numberLoops.get? name = some { f with body := f.body.numberLoops (t.loopStart name) } := by
  obtain ⟨before, after, hentries⟩ := List.append_of_mem (NameMap.mem_of_get? hf)
  have hstart : t.loopStart name = backEdgeCount before := by
    rw [loopStart, ht.ordered.filter_lt hentries]
  refine (ordered_numberLoops ht).get?_eq_some_iff.mpr ?_
  have hpass : t.numberLoops.functions.entries =
      loopNumberedFrom 0 before ++
        loopNumberedFrom (0 + backEdgeCount before) ((name, f) :: after) := by
    rw [← loopNumberedFrom_append, ← hentries]
    rfl
  rw [hpass, loopNumberedFrom_cons, hstart, Nat.zero_add]
  exact List.mem_append_right _ List.mem_cons_self

theorem loopStart_add_le (ht : t.WellFormed) (hmn : m < n) (hf : t.get? m = some f) :
    t.loopStart m + f.body.backwardsGotos.length ≤ t.loopStart n := by
  obtain ⟨before, after, hentries⟩ := List.append_of_mem (NameMap.mem_of_get? hf)
  have hbefore := (ht.ordered.split hentries).1
  have hkept : before.filter (fun e => e.1 < n) = before :=
    List.filter_eq_self.mpr fun b hb => decide_eq_true (String.lt_trans (hbefore b hb) hmn)
  have hstart : t.loopStart m = backEdgeCount before := by
    rw [loopStart, ht.ordered.filter_lt hentries]
  have hnext : t.loopStart n = backEdgeCount before + (f.body.backwardsGotos.length +
      backEdgeCount (after.filter fun e => e.1 < n)) := by
    have hfirst : ((m, f) :: after).filter (fun e => e.1 < n) =
        (m, f) :: after.filter fun e => e.1 < n :=
      List.filter_cons_of_pos (decide_eq_true hmn)
    rw [loopStart, hentries, List.filter_append, hkept, hfirst, backEdgeCount_append,
      backEdgeCount_cons]
  omega

theorem loopsNumbered_numberLoops (ht : t.WellFormed) : t.LoopsNumbered t.numberLoops where
  names := names_numberLoops
  bodies := fun name f hf =>
    ⟨_, get?_numberLoops ht hf, Program.loopsNumbered_numberLoops f.body (t.loopStart name)⟩
  apart := by
    intro m n f g hne hf hg h u j hj k hk
    have hj := Program.lt_of_mem_loopsAt hj
    have hk := Program.lt_of_mem_loopsAt hk
    -- the function with the smaller name has all its numbers below those of the other
    rcases Std.lt_trichotomy m n with hlt | heq | hlt
    · have := loopStart_add_le ht hlt hf
      omega
    · exact absurd heq hne
    · have := loopStart_add_le ht hlt hg
      omega

end Supply

/-- Numbering the loops of a program takes one number for each back edge, and the last number that
an instruction is given, as a back edge or as a head, is the one it has. A pass over the arena,
which asks for the next back edge with some numbers already changed, comes to the same. Through a
table of functions the numbers count from zero in the order of the names, and no two functions give
the same. -/
theorem numberLoops_exact :
    (∀ (p : Program) (start : Nat), p.WellFormed →
      (Edit.numberLoops start).apply p =
        (p.numberLoops start, .counter (start + p.backwardsGotos.length)) ∧
      (Arena.ofProgram p).numberLoops start =
        (Arena.ofProgram (p.numberLoops start), start + p.backwardsGotos.length) ∧
      p.LoopsNumbered start (p.numberLoops start)) ∧
    ∀ t : FunctionTable, t.WellFormed → t.LoopsNumbered t.numberLoops := by
  constructor
  · intro p start hp
    exact ⟨rfl, Arena.numberLoops_ofProgram hp, p.loopsNumbered_numberLoops start⟩
  · intro t ht
    exact loopsNumbered_numberLoops ht

/-- A jump to itself, two to one head, one to another back edge, one whose first target comes later,
and one whose first target is not there. -/
def tangledLoops : Program :=
  let jump (targets : List Handle) : Instruction := { statement := .goto, targets }
  (Program.ofList 0 [.ofStatement .skip, jump [⟨0, 1⟩], jump [⟨0, 0⟩], jump [⟨0, 2⟩], jump [⟨0, 0⟩],
    jump [⟨0, 6⟩, ⟨0, 1⟩], jump [⟨9, 9⟩, ⟨0, 0⟩], { statement := .endFunction, loopNumber := 3 }]
      ).numberLocations 0

def tableOfTangledLoops : FunctionTable :=
  (empty.insert "c::g" { body := Samples.counterLoop 1 "c::f" }).insert "c::f"
    { body := tangledLoops }

/-- The head of two loops has the number of the later one, and a back edge that is a head that of
the jump to it. The other function goes on behind the six loops. -/
theorem numbers_of_tangledLoops :
    let t := tableOfTangledLoops
    tangledLoops.WellFormed ∧ t.WellFormed ∧
    (Edit.numberLoops 5).apply tangledLoops = (tangledLoops.numberLoops 5, .counter 11) ∧
    tangledLoops.LoopsNumbered 5 (tangledLoops.numberLoops 5) ∧
    (tangledLoops.numberLoops 5).instructions.map Instruction.loopNumber =
      [8, 5, 7, 7, 8, 9, 10, 3] ∧
    t.LoopsNumbered t.numberLoops ∧ t.loopStart "c::f" = 0 ∧ t.loopStart "c::g" = 6 := by
  have hloops : tangledLoops.WellFormed := Program.wellFormed_ofList.numberLocations
  have htable : tableOfTangledLoops.WellFormed :=
    (wellFormed_empty.insert Program.wellFormed_ofList).insert hloops
  obtain ⟨hreply, -, hnumbered⟩ := numberLoops_exact.1 tangledLoops 5 hloops
  have hcount : 5 + tangledLoops.backwardsGotos.length = 11 := by decide +kernel
  rw [hcount] at hreply
  exact ⟨hloops, htable, hreply, hnumbered, by decide +kernel, numberLoops_exact.2 _ htable,
    by decide +kernel, by decide +kernel⟩

end FunctionTable
end GotoCheck
