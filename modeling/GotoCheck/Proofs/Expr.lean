import GotoCheck.Expr

/-! Parts of expressions. The list of nodes holds exactly the expressions within an expression. -/
namespace GotoCheck.Expr

/-- One expression is, or lies somewhere in, another. -/
inductive Within (x : Expr) : Expr → Prop
  | self : Within x x
  | part {p e : Expr} : p ∈ e.operands → Within x p → Within x e

theorem allNodes_eq (es : List Expr) : allNodes es = es.flatMap nodes := by
  induction es with
  | nil => rfl
  | cons e es ih => rw [allNodes, ih, List.flatMap_cons]

theorem nodes_eq (e : Expr) : e.nodes = e :: e.operands.flatMap nodes := by
  cases e <;> simp [nodes, operands, allNodes_eq]

theorem sizeOf_lt_of_mem_operands {p e : Expr} (h : p ∈ e.operands) : sizeOf p < sizeOf e := by
  cases e <;> simp only [operands, List.mem_cons, List.not_mem_nil, or_false] at h
  case structValue vs t => have := List.sizeOf_lt_of_mem h; simp; omega
  case arrayValue vs t => have := List.sizeOf_lt_of_mem h; simp; omega
  case binary op l r t => rcases h with rfl | rfl <;> simp <;> omega
  case index b i t => rcases h with rfl | rfl <;> simp <;> omega
  case conditional c a b t => rcases h with rfl | rfl | rfl <;> simp <;> omega
  all_goals subst h; simp; omega

theorem mem_nodes_iff {x e : Expr} : x ∈ e.nodes ↔ Within x e := by
  rw [nodes_eq, List.mem_cons, List.mem_flatMap]
  -- both directions go down to an operand, which is smaller
  constructor
  · intro hx
    rcases hx with rfl | ⟨p, hp, hx⟩
    · exact .self
    · have := sizeOf_lt_of_mem_operands hp
      exact .part hp (mem_nodes_iff.mp hx)
  · intro h
    cases h with
    | self => exact .inl rfl
    | part hp hx =>
      have := sizeOf_lt_of_mem_operands hp
      exact .inr ⟨_, hp, mem_nodes_iff.mpr hx⟩
termination_by sizeOf e

end GotoCheck.Expr
