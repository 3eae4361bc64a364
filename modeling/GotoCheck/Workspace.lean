import GotoCheck.NameMap
import GotoCheck.Program.Copy

/-! Several programs under names, with one supply of tags. A tag is given out once, so the handles
of different programs never meet, not even after a program has been cleared. -/
namespace GotoCheck

/-- A change to one program. -/
inductive Edit
  | add (i : Instruction)
  | insertBefore (place : Handle) (i : Instruction)
  | insertAfter (place : Handle) (i : Instruction)
  | remove (h : Handle)
  | set (h : Handle) (i : Instruction)
  | computeTargetNumbers
  | update
  | numberLocations (start : Nat)
  | numberLoops (start : Nat)

/-- What an operation answers. -/
inductive Reply
  | done
  /-- The handle of a new instruction. -/
  | issued (h : Handle)
  | removed (i : Instruction)
  /-- The next free number. -/
  | counter (n : Nat)
  | failed (e : ProgramError)
  /-- There is no program of that name. -/
  | noProgram

namespace Reply

def ofOutcome : Except ProgramError Unit → Reply
  | .ok () => done
  | .error e => failed e

end Reply

namespace Edit

/-- The edited program, or the program as it was where the result is an error. -/
def keep (p : Program) (reply : Reply) : Except ProgramError Program → Program × Reply
  | .ok q => (q, reply)
  | .error e => (p, .failed e)

def apply (p : Program) : Edit → Program × Reply
  | add i => (p.add i, .issued p.nextHandle)
  | insertBefore h i => keep p (.issued p.nextHandle) (p.insertBefore h i)
  | insertAfter h i => keep p (.issued p.nextHandle) (p.insertAfter h i)
  | remove h =>
    match p.remove h with
    | .ok (q, i) => (q, .removed i)
    | .error e => (p, .failed e)
  | set h i => keep p .done (p.set h i)
  | computeTargetNumbers =>
    let (q, outcome) := p.computeTargetNumbers
    (q, .ofOutcome outcome)
  | update =>
    let (q, outcome) := p.update
    (q, .ofOutcome outcome)
  | numberLocations start => (p.numberLocations start, .counter (start + p.size))
  | numberLoops start => (p.numberLoops start, .counter (start + p.backwardsGotos.length))

end Edit

structure Workspace where
  programs : NameMap Program
  /-- Tags below this one are taken. -/
  nextTag : Nat

/-- An operation on named programs. -/
inductive Command
  | create (name : String)
  | clear (name : String)
  | edit (name : String) (change : Edit)
  /-- Moves all instructions of the program `source` to the end of `name`. -/
  | append (name source : String)
  /-- Replaces the program `name` by a copy of `source`. -/
  | copy (name source : String)

namespace Workspace

def empty : Workspace := ⟨.empty, 0⟩

def program? (w : Workspace) (name : String) : Option Program := w.programs.get? name

def put (w : Workspace) (name : String) (p : Program) : Workspace :=
  { w with programs := w.programs.insert name p }

/-- Stores an empty program under a fresh tag. -/
def putEmpty (w : Workspace) (name : String) : Workspace :=
  { programs := w.programs.insert name (.empty w.nextTag), nextTag := w.nextTag + 1 }

def run (w : Workspace) : Command → Workspace × Reply
  | .create name => (w.putEmpty name, .done)
  | .clear name =>
    match w.program? name with
    | some _ => (w.putEmpty name, .done)
    | none => (w, .noProgram)
  | .edit name change =>
    match w.program? name with
    | some p =>
      let (q, reply) := change.apply p
      (w.put name q, reply)
    | none => (w, .noProgram)
  | .append name source =>
    match w.program? name, w.program? source with
    | some p, some q =>
      let (r, outcome) := p.append q
      ((w.put name r).putEmpty source, .ofOutcome outcome)
    | _, _ => (w, .noProgram)
  | .copy name source =>
    match w.program? source with
    | some q =>
      let (r, outcome) := q.copy w.nextTag
      (({ w with nextTag := w.nextTag + 1 }).put name r, .ofOutcome outcome)
    | none => (w, .noProgram)

/-- Leads the jumps of one instruction over to other handles. Nothing happens where there is no such
instruction; where some target has no image, the targets stay. -/
def retarget (w : Workspace) (name : String) (h : Handle) (image : Handle → Option Handle) :
    Workspace × Option (Except ProgramError Unit) :=
  match w.program? name with
  | none => (w, none)
  | some p =>
    match p.get? h with
    | none => (w, none)
    | some i =>
      match i.retarget image with
      | .ok j => (w.put name (p.modify h fun _ => j), some (.ok ()))
      | .error e => (w, some (.error e))

end Workspace
end GotoCheck
