import GotoCheck.Loop.Extract
import GotoCheck.Program.Copy

/-! Small goto programs to try analyses on: a counting loop that calls a function, functions that
call each other, and programs laid out from a list of shapes. -/
namespace GotoCheck.Samples

def mainName : String := "c::main"

def helperName : String := "c::f"

def intVariable (name : String) : Expr := .symbol name .int

def intConstant (value : Int) : Expr := .ofInt value .int

/-- A function without parameters and result. -/
def procedureType : CType := .code [] .void

def callee (name : String) : Expr := .symbol name procedureType

/-- A name without the marks of the source language in front of it. -/
def bareName (name : String) : String := String.ofList (strip name.toList)
where
  strip : List Char → List Char
    | 'c' :: ':' :: ':' :: rest => strip rest
    | cs => cs

/-- The symbols that the samples use. -/
def symbols : SymbolTable :=
  let named := [("c::main::x", "x"), ("c::y", "y"), ("c::z", "z"), ("c::main::p", "p")]
  let functions := [mainName, helperName, "c::g", "c::h"]
  .ofList (named.map (fun v => .ofVariable v.1 v.2 .int) ++
    functions.map fun n => .ofFunction n (bareName n) procedureType)

/-- `for (x = 0; x < 10; x++) call();` and an assertion on `x`. The loop head is in slot 1, the back
edge in slot 4. -/
def counterLoop (tag : Nat) (call : String) : Program :=
  let x := intVariable "c::main::x"
  let at' (line : Nat) (i : Instruction) : Instruction :=
    { i with location := { file := "main.c", line, function := "main" } }
  let leave := Expr.mkUnary .not (.mkBinary .lt x (intConstant 10))
  let check : Instruction :=
    { statement := .assert, guard := .mkBinary .eq x (intConstant 10)
      location := { file := "main.c", line := 7, function := "main", comment := "x reaches 10" } }
  .ofList tag [
    at' 3 (.assign x (intConstant 0)),
    at' 3 (.goto leave ⟨tag, 5⟩),
    at' 4 (.assign x (.mkBinary .add x (intConstant 1))),
    at' 5 (.call none (callee call) []),
    at' 3 (.goto (.ofBool true) ⟨tag, 1⟩),
    check,
    .endFunction]

/-- A body that writes a variable and then may call a function. -/
def helperBody (tag : Nat) (variableName : String) (calls : Option String) : Program :=
  .ofList tag ([.assign (intVariable variableName) (intConstant 1)] ++
    (calls.map fun name => .call none (callee name) []).toList ++ [.endFunction])

/-- A numbered table of bodies. -/
def tableOf (bodies : List (String × Program)) : FunctionTable :=
  (bodies.foldl (fun t b => t.insert b.1 { body := b.2 }) FunctionTable.empty).update.1

/-- The main function loops over a call of `call`; the helper writes a variable. -/
def counterTable (call variableName : String) (calls : Option String) : FunctionTable :=
  tableOf [(mainName, counterLoop 0 call), (helperName, helperBody 1 variableName calls)]

def loopWithHelper : FunctionTable := counterTable helperName "c::y" none

/-- The main function loops over a call of itself. -/
def directlyRecursiveLoop : FunctionTable := tableOf [(mainName, counterLoop 0 mainName)]

/-- The main function loops over a call of one of two functions that call each other. -/
def mutuallyRecursiveLoop : FunctionTable :=
  tableOf [(mainName, counterLoop 0 "c::g"), ("c::g", helperBody 1 "c::y" (some "c::h")),
    ("c::h", helperBody 2 "c::z" (some "c::g"))]

/-- What to put at a place of a program. Jumps count their goal modulo the number of shapes. -/
inductive Shape
  | assign
  | skip
  /-- A conditional jump. -/
  | goto (goal : Nat)
  /-- A jump that is always taken. -/
  | jump (goal : Nat)
  | assume (holds : Bool)

def shapeInstruction (tag count place : Nat) : Shape → Instruction
  | .assign => .assign (intVariable "c::main::x") (intConstant place)
  | .skip => .ofStatement .skip
  | .goto goal =>
    .goto (.mkBinary .lt (intVariable "c::main::x") (intConstant 5)) ⟨tag, goal % count⟩
  | .jump goal => .goto (.ofBool true) ⟨tag, goal % count⟩
  | .assume holds => { statement := .assume, guard := .ofBool holds }

/-- The numbered program of the shapes, with an end marker behind them. -/
def ofShapes (tag : Nat) (shapes : List Shape) : Program :=
  (Program.ofList tag (shapes.mapIdx (fun k s => shapeInstruction tag shapes.length k s) ++
    [.endFunction])).update.1

/-- A program of shapes beside a copy of it. -/
def shapesTable (shapes : List Shape) : FunctionTable :=
  let main := ofShapes 0 shapes
  tableOf [(mainName, main), ("c::copy", (main.copy 2).1)]

end GotoCheck.Samples
