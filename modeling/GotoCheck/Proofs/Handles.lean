import GotoCheck.Proofs.GivenHandles

/-! Handles over the life of a workspace. A handle is spent once it has been given out: the supply
of slots of its program has gone past it, or no program has its tag any more. Spent handles stay
spent and commands give out only others, so no handle is given out twice, and one that has gone
from its program is gone for good. -/
namespace GotoCheck

namespace Program
variable {p : Program} {h : Handle}

/-- The program answers nothing about the handle. -/
structure Silent (p : Program) (h : Handle) : Prop where
  position : p.position? h = none
  get : p.get? h = none
  contains : p.contains h = false
  next : p.next? h = none
  successors : p.successors h = []

theorem silent_of_not_contains (hh : ¬p.contains h) : p.Silent h := by
  have hids : h ∉ p.ids := fun hmem => hh (contains_iff.mpr hmem)
  have hposition : p.position? h = none := position?_eq_none_iff.mpr hids
  have hget : p.get? h = none := get?_eq_none_iff.mpr hids
  exact {
    position := hposition
    get := hget
    contains := Bool.eq_false_iff.mpr hh
    next := by rw [next?, hposition]; rfl
    successors := by rw [successors, hget] }

end Program

namespace Workspace
variable {w : Workspace} {c : Command} {m n : String} {p q : Program} {h : Handle}

/-- The handle is in the program of that name. -/
def Live (w : Workspace) (name : String) (h : Handle) : Prop :=
  ∃ p, w.program? name = some p ∧ p.contains h

instance (w : Workspace) (name : String) (h : Handle) : Decidable (w.Live name h) :=
  decidable_of_iff ((w.program? name).any fun p => p.contains h) (by
    simp [Live, Option.any_eq_true])

/-- Its tag is taken, and a program that still has the tag has gone past the slot. -/
def Spent (w : Workspace) (h : Handle) : Prop :=
  h.program < w.nextTag ∧ ∀ n p, w.program? n = some p → p.tag = h.program → h.slot < p.issued

/-- The invariant of workspaces: no two programs have one tag. -/
structure Orderly (w : Workspace) : Prop where
  wellFormed : w.WellFormed
  taken : w.TagsTaken
  distinct : ∀ m n p q, w.program? m = some p → w.program? n = some q → p.tag = q.tag → m = n

theorem orderly_empty : empty.Orderly where
  wellFormed := wellFormed_after []
  taken := tagsTaken_after []
  distinct _ _ _ _ hp := by cases hp

namespace Orderly

theorem run (hw : w.Orderly) (c : Command) : (w.run c).1.Orderly where
  wellFormed := wellFormed_run hw.wellFormed c
  taken := (hw.taken.run c).1
  distinct m n p q hp hq htag := by
    -- a fresh tag is above all others, and only one program gets it
    cases origin_run c hp with
    | kept hp₀ hptag _ _ =>
      cases origin_run c hq with
      | kept hq₀ hqtag _ _ => exact hw.distinct m n _ _ hp₀ hq₀ (by rw [← hptag, ← hqtag, htag])
      | renewed _ hqtag _ _ =>
        have := hw.taken m _ hp₀
        omega
    | renewed hm hptag _ _ =>
      cases origin_run c hq with
      | kept hq₀ hqtag _ _ =>
        have := hw.taken n _ hq₀
        omega
      | renewed hn _ _ _ => exact Option.some.inj (hm.symm.trans hn)

theorem spent_of_live (hw : w.Orderly) (hh : w.Live n h) : w.Spent h := by
  obtain ⟨p, hp, hmem⟩ := hh
  have hprogram := Program.program_of_contains hmem
  refine ⟨hprogram ▸ hw.taken n p hp, fun m q hq htag => ?_⟩
  have hmn : m = n := hw.distinct m n q p hq hp (htag.trans hprogram)
  subst hmn
  cases hp.symm.trans hq
  have hids := Program.contains_iff.mp hmem
  rw [Program.eq_handle_of_mem hids] at hids
  exact (hw.wellFormed.program? hp).slot_lt hids

/-- A handle is in one program at most. -/
theorem live_inj (hw : w.Orderly) (hm : w.Live m h) (hn : w.Live n h) : m = n := by
  obtain ⟨p, hp, hp'⟩ := hm
  obtain ⟨q, hq, hq'⟩ := hn
  refine hw.distinct m n p q hp hq ?_
  rw [← Program.program_of_contains hp', ← Program.program_of_contains hq']

theorem spent_run (hw : w.Orderly) (hh : w.Spent h) (c : Command) : (w.run c).1.Spent h := by
  obtain ⟨htaken, hissued⟩ := hh
  refine ⟨Nat.lt_of_lt_of_le htaken (hw.taken.run c).2, fun n q hq htag => ?_⟩
  -- a program that stays only goes on in its slots, and a renewed one has another tag
  cases origin_run c hq with
  | kept hp hptag hle _ =>
    have := hissued n _ hp (by rw [← hptag, htag])
    omega
  | renewed _ hqtag _ _ => omega

/-- What a command gives out was not spent before. -/
theorem not_spent_of_given (hh : h ∈ w.given c) : ¬w.Spent h := by
  intro hspent
  obtain ⟨htaken, hissued⟩ := hspent
  cases c with
  | create name => cases hh
  | clear name => cases hh
  | edit name change =>
    cases hp : w.program? name with
    | none => simp [given, Workspace.run, hp] at hh
    | some p =>
      rw [mem_given_edit hp] at hh
      obtain ⟨rfl, -⟩ := (hh ▸ p.handed_apply change).of_issued
      exact Nat.lt_irrefl _ (hissued name p hp rfl)
  | append name source =>
    cases hp : w.program? name with
    | none => simp [given, hp] at hh
    | some p =>
      cases hq : w.program? source with
      | none => simp [given, hp, hq] at hh
      | some q =>
        obtain ⟨s, hle, -, rfl⟩ := (mem_given_append hp hq).mp hh
        exact Nat.not_lt_of_le hle (hissued name p hp rfl)
  | copy name source =>
    cases hq : w.program? source with
    | none => simp [given, hq] at hh
    | some q =>
      obtain ⟨s, -, rfl⟩ := (mem_given_copy hq).mp hh
      exact Nat.lt_irrefl _ htaken

theorem spent_put (hw : w.Orderly) {name : String} (hp : w.program? name = some p)
    (hprogram : h.program = p.tag) (hlt : h.slot < q.issued) : (w.put name q).Spent h := by
  refine ⟨hprogram ▸ hw.taken name p hp, fun n r hr htag => ?_⟩
  rcases eq_or_program?_put hr with ⟨-, rfl⟩ | ⟨hne, hr⟩
  · exact hlt
  · exact absurd (hw.distinct n name r p hr hp (htag.trans hprogram)) hne

theorem spent_putEmpty {name : String} (hh : w.Spent h) : (w.putEmpty name).Spent h := by
  obtain ⟨htaken, hissued⟩ := hh
  refine ⟨Nat.lt_succ_of_lt htaken, fun n r hr htag => ?_⟩
  rcases eq_or_program?_putEmpty hr with ⟨-, rfl⟩ | ⟨-, hr⟩
  · exact absurd htag (Nat.ne_of_gt htaken)
  · exact hissued n r hr htag

/-- What a command gives out is spent from then on. -/
theorem spent_of_given (hw : w.Orderly) (hh : h ∈ w.given c) : (w.run c).1.Spent h := by
  cases c with
  | create name => cases hh
  | clear name => cases hh
  | edit name change =>
    cases hp : w.program? name with
    | none => simp [given, Workspace.run, hp] at hh
    | some p =>
      rw [mem_given_edit hp] at hh
      obtain ⟨rfl, hissued⟩ := (hh ▸ p.handed_apply change).of_issued
      have hlt : p.nextHandle.slot < (change.apply p).1.issued := hissued ▸ Nat.lt_succ_self _
      simpa only [Workspace.run, hp] using hw.spent_put hp rfl hlt
  | append name source =>
    cases hp : w.program? name with
    | none => simp [given, hp] at hh
    | some p =>
      cases hq : w.program? source with
      | none => simp [given, hp, hq] at hh
      | some q =>
        obtain ⟨s, -, hlt, rfl⟩ := (mem_given_append hp hq).mp hh
        have hput : (w.put name (p.append q).1).Spent (p.handle s) := hw.spent_put hp rfl hlt
        simpa only [Workspace.run, hp, hq] using spent_putEmpty hput
  | copy name source =>
    cases hq : w.program? source with
    | none => simp [given, hq] at hh
    | some q =>
      obtain ⟨s, hlt, rfl⟩ := (mem_given_copy hq).mp hh
      simp only [Workspace.run, hq]
      refine ⟨Nat.lt_succ_self _, fun n r hr htag => ?_⟩
      rcases eq_or_program?_put hr with ⟨-, rfl⟩ | ⟨-, hr⟩
      · exact Program.issued_copy.symm ▸ hlt
      · exact absurd htag (Nat.ne_of_lt (hw.taken n r hr))

theorem live_run (hh : (w.run c).1.Live n h) : w.Live n h ∨ h ∈ w.given c := by
  obtain ⟨q, hq, hmem⟩ := hh
  have hids := Program.contains_iff.mp hmem
  cases origin_run c hq with
  | kept hp _ _ horigin =>
    exact (horigin h hids).imp_left fun hold => ⟨_, hp, Program.contains_iff.mpr hold⟩
  | renewed _ _ _ hgiven => exact .inr (hgiven hids)

end Orderly

/-- The workspace that commands lead to. -/
def runs (w : Workspace) (commands : List Command) : Workspace :=
  commands.foldl (fun w c => (w.run c).1) w

theorem after_append (commands later : List Command) :
    after (commands ++ later) = (after commands).runs later := by
  rw [after, List.foldl_append]
  rfl

namespace Orderly
variable {commands : List Command}

theorem runs (hw : w.Orderly) (commands : List Command) : (w.runs commands).Orderly := by
  induction commands generalizing w with
  | nil => exact hw
  | cons c rest ih => exact ih (hw.run c)

theorem spent_runs (hw : w.Orderly) (hh : w.Spent h) : (w.runs commands).Spent h := by
  induction commands generalizing w with
  | nil => exact hh
  | cons c rest ih => exact ih (hw.run c) (hw.spent_run hh c)

theorem live_runs (hh : (w.runs commands).Live n h) : w.Live n h ∨ h ∈ w.givenAlong commands := by
  induction commands generalizing w with
  | nil => exact .inl hh
  | cons c rest ih =>
    rw [givenAlong, List.mem_append, ← or_assoc]
    exact (ih hh).imp_left live_run

/-- Along a run nothing is given out that was spent before, and nothing twice. -/
theorem givenAlong_fresh (hw : w.Orderly) :
    (∀ h ∈ w.givenAlong commands, ¬w.Spent h) ∧ (w.givenAlong commands).Nodup := by
  induction commands generalizing w with
  | nil => exact ⟨fun h hh => absurd hh List.not_mem_nil, List.nodup_nil⟩
  | cons c rest ih =>
    obtain ⟨hfresh, hnodup⟩ := ih (hw.run c)
    constructor
    · intro h hh hspent
      rcases List.mem_append.mp hh with hh | hh
      · exact not_spent_of_given hh hspent
      · exact hfresh h hh (hw.spent_run hspent c)
    · -- what the first command gives out is spent when the others run
      refine (nodup_given hw.wellFormed c).append hnodup fun h hh hrest => ?_
      exact hfresh h hrest (hw.spent_of_given hh)

/-- What was live once and is not any more is not live later. -/
theorem not_live_runs (hw : w.Orderly) {later : List Command} (hlive : w.Live n h)
    (hgone : ¬(w.runs commands).Live n h) : ¬((w.runs commands).runs later).Live m h := by
  have hspent := hw.spent_of_live hlive
  -- in another program it would have been live already, as a spent handle is not given out
  have hagain : ¬(w.runs commands).Live m h := by
    intro hh
    rcases live_runs hh with hold | hgiven
    · have hmn := hw.live_inj hold hlive
      exact hgone (hmn ▸ hh)
    · exact hw.givenAlong_fresh.1 h hgiven hspent
  intro hh
  rcases live_runs hh with hold | hgiven
  · exact hagain hold
  · exact (hw.runs commands).givenAlong_fresh.1 h hgiven (hw.spent_runs hspent)

end Orderly

/-- Whatever commands run, no handle is given out twice, every handle in a program was given out,
no handle is in two programs, and once a handle has gone from its program, no program ever answers
anything about it again. -/
theorem handles_never_return (commands : List Command) :
    (empty.givenAlong commands).Nodup ∧
    (∀ n h, (after commands).Live n h → h ∈ empty.givenAlong commands) ∧
    (∀ m n h, (after commands).Live m h → (after commands).Live n h → m = n) ∧
    ∀ earlier, earlier <+: commands → ∀ n h, (after earlier).Live n h →
      ¬(after commands).Live n h →
      ∀ later m p, (after (commands ++ later)).program? m = some p → p.Silent h := by
  have hw : (after commands).Orderly := orderly_empty.runs _
  refine ⟨orderly_empty.givenAlong_fresh.2, fun n h hh => ?_, fun m n h => hw.live_inj, ?_⟩
  · rcases Orderly.live_runs hh with hold | hgiven
    · obtain ⟨p, hp, -⟩ := hold
      cases hp
    · exact hgiven
  · intro earlier hprefix n h hlive hgone later m p hp
    obtain ⟨between, rfl⟩ := hprefix
    have hstart : (after earlier).Orderly := orderly_empty.runs _
    rw [after_append] at hgone
    rw [after_append, after_append] at hp
    exact Program.silent_of_not_contains fun hmem =>
      hstart.not_live_runs hlive hgone ⟨p, hp, hmem⟩

/-- Two programs: instructions of the first are moved behind those of the second and copied back,
and the second is cleared and begun anew. -/
def movedPrograms : List Command :=
  [.create "p", .create "q", .edit "p" (.add (.ofStatement .skip)),
    .edit "p" (.add (.ofStatement .skip)),
    .edit "p" (.insertAfter ⟨0, 0⟩ (.ofStatement .skip)), .edit "q" (.add (.ofStatement .skip)),
    .edit "p" (.remove ⟨0, 1⟩), .append "q" "p", .copy "p" "q", .clear "q",
    .edit "q" (.add (.ofStatement .skip))]

theorem handles_of_movedPrograms : empty.givenAlong movedPrograms =
      [⟨0, 0⟩, ⟨0, 1⟩, ⟨0, 2⟩, ⟨1, 0⟩, ⟨1, 1⟩, ⟨1, 2⟩, ⟨3, 0⟩, ⟨3, 1⟩, ⟨3, 2⟩, ⟨4, 0⟩] ∧
    (empty.givenAlong movedPrograms).Nodup ∧
    (after (movedPrograms.take 6)).Live "q" ⟨1, 0⟩ ∧ ¬(after movedPrograms).Live "q" ⟨1, 0⟩ ∧
    ∀ later m p, (after (movedPrograms ++ later)).program? m = some p → p.Silent ⟨1, 0⟩ := by
  have hlive : (after (movedPrograms.take 6)).Live "q" ⟨1, 0⟩ := by decide +kernel
  have hgone : ¬(after movedPrograms).Live "q" ⟨1, 0⟩ := by decide +kernel
  obtain ⟨hnodup, -, -, hsilent⟩ := handles_never_return movedPrograms
  exact ⟨by decide +kernel, hnodup, hlive, hgone,
    hsilent _ (List.take_prefix 6 _) "q" ⟨1, 0⟩ hlive hgone⟩

end Workspace
end GotoCheck
