import GotoCheck.Induction.Config

/-! The bounds that a run tries. They are the start and what follows it at the stride, as far as the
largest bound and 32 bits go. -/
namespace GotoCheck.Induction.Config
variable {c : Config} {k n : Nat}

theorem next?_eq_some (h : c.next? k = some n) : n = k + c.stride ∧ n < boundLimit := by
  unfold next? at h
  split at h
  · cases h; exact ⟨rfl, by assumption⟩
  · cases h

theorem next?_eq_none (h : c.next? k = none) : boundLimit ≤ k + c.stride := by
  unfold next? at h
  split at h
  · cases h
  · omega

theorem steps_of_le (h : k ≤ c.largest) :
    c.steps k = k :: ((c.next? k).map c.steps).getD [] := by
  rw [steps, if_pos h, next?]
  split <;> rfl

/-- The bounds from `a` on, by their distance from it. -/
theorem mem_steps_iff {a : Nat} :
    k ∈ c.steps a ↔ ∃ i, k = a + i * c.stride ∧ k ≤ c.largest ∧ (i = 0 ∨ k < boundLimit) := by
  by_cases ha : a ≤ c.largest
  -- the bounds after the first one are those of the next start
  · have hpos := c.stride_pos
    rw [steps, if_pos ha, List.mem_cons]
    split
    · rename_i hlt
      rw [mem_steps_iff]
      constructor
      · intro hx
        rcases hx with rfl | ⟨i, rfl, hle, hi⟩
        · exact ⟨0, by omega, ha, .inl rfl⟩
        · refine ⟨i + 1, by rw [Nat.succ_mul]; omega, hle, .inr ?_⟩
          rcases hi with rfl | hi <;> omega
      · intro hx
        obtain ⟨i, rfl, hle, hi⟩ := hx
        cases i with
        | zero => exact .inl (by omega)
        | succ i =>
          refine .inr ⟨i, by rw [Nat.succ_mul]; omega, hle, .inr ?_⟩
          rcases hi with hi | hi
          · cases hi
          · exact hi
    · constructor
      · intro hx
        rcases hx with rfl | h
        · exact ⟨0, by omega, ha, .inl rfl⟩
        · cases h
      · intro hx
        obtain ⟨i, rfl, hle, hi⟩ := hx
        refine .inl ?_
        rcases hi with rfl | hi
        · omega
        · cases i with
          | zero => omega
          | succ i => rw [Nat.succ_mul] at hi; omega
  · rw [steps, if_neg ha]
    constructor
    · intro h; cases h
    · intro hx
      obtain ⟨i, rfl, hle, -⟩ := hx
      omega
termination_by c.largest + 1 - a

theorem le_of_mem_steps {a : Nat} (hk : k ∈ c.steps a) : a ≤ k := by
  obtain ⟨i, rfl, -⟩ := mem_steps_iff.mp hk
  exact Nat.le_add_right _ _

theorem stride_eq_one (hc : c.increment ≤ 1) : c.stride = 1 := by
  unfold stride
  omega

/-- With steps of one all bounds in between are tried. -/
theorem mem_steps_iff_of_stride {a : Nat} (hc : c.stride = 1) :
    k ∈ c.steps a ↔ a ≤ k ∧ k ≤ c.largest ∧ (k = a ∨ k < boundLimit) := by
  rw [mem_steps_iff]
  constructor
  · intro hx
    obtain ⟨i, rfl, hle, hi⟩ := hx
    exact ⟨Nat.le_add_right _ _, hle, hi.imp_left fun h0 => by rw [h0, Nat.zero_mul, Nat.add_zero]⟩
  · intro hx
    obtain ⟨ha, hle, hi⟩ := hx
    exact ⟨k - a, by rw [hc]; omega, hle, hi.imp_left fun h => by omega⟩

theorem pairwise_steps (c : Config) (a : Nat) : (c.steps a).Pairwise (· < ·) := by
  have hpos := c.stride_pos
  rw [steps]
  split
  · refine List.pairwise_cons.mpr ⟨fun k hk => ?_, ?_⟩
    · split at hk
      · have hle := le_of_mem_steps hk
        omega
      · cases hk
    · split
      · exact pairwise_steps c (a + c.stride)
      · exact List.Pairwise.nil
  · exact List.Pairwise.nil
termination_by c.largest + 1 - a

end GotoCheck.Induction.Config
