import GotoCheck.NameMap

/-! Maps from names: what inserting does to the names and to their order. -/
namespace GotoCheck.NameMap
variable {α : Type} {m : NameMap α} {n k : String} {v : α}

theorem get?_isSome_iff : (m.get? n).isSome ↔ n ∈ m.names := by
  simp only [get?, names, Option.isSome_map, List.find?_isSome, List.mem_map]
  constructor
  · intro hx
    obtain ⟨e, he, hn⟩ := hx
    exact ⟨e, he, by simpa using hn⟩
  · intro hx
    obtain ⟨e, he, rfl⟩ := hx
    exact ⟨e, he, by simp⟩

theorem mem_of_get? (h : m.get? n = some v) : (n, v) ∈ m.entries := by
  obtain ⟨e, he, rfl⟩ := Option.map_eq_some_iff.mp h
  have hname : e.1 = n := by simpa using List.find?_some he
  exact hname ▸ List.mem_of_find?_eq_some he

/-- The names before an entry are smaller and those after it larger. -/
theorem Ordered.split {before after : List (String × α)} {e : String × α} (h : m.Ordered)
    (hm : m.entries = before ++ e :: after) :
    (∀ b ∈ before, b.1 < e.1) ∧ ∀ a ∈ after, e.1 < a.1 := by
  unfold Ordered names at h
  rw [hm, List.map_append, List.map_cons, List.pairwise_append, List.pairwise_cons] at h
  obtain ⟨-, ⟨hafter, -⟩, hbefore⟩ := h
  exact ⟨fun b hb => hbefore b.1 (List.mem_map_of_mem hb) e.1 List.mem_cons_self,
    fun a ha => hafter a.1 (List.mem_map_of_mem ha)⟩

/-- The entries with smaller names are those before. -/
theorem Ordered.filter_lt {before after : List (String × α)} {e : String × α} (h : m.Ordered)
    (hm : m.entries = before ++ e :: after) :
    m.entries.filter (fun d => d.1 < e.1) = before := by
  obtain ⟨hbefore, hafter⟩ := h.split hm
  have hkept : before.filter (fun d => d.1 < e.1) = before :=
    List.filter_eq_self.mpr fun b hb => decide_eq_true (hbefore b hb)
  have hdropped : (e :: after).filter (fun d => d.1 < e.1) = [] := by
    rw [List.filter_eq_nil_iff]
    intro a ha
    rw [decide_eq_true_eq]
    rcases List.mem_cons.mp ha with rfl | ha
    · exact String.lt_irrefl a.1
    · exact String.lt_asymm (hafter a ha)
  rw [hm, List.filter_append, hkept, hdropped, List.append_nil]

/-- In an ordered map no name stands for two values. -/
theorem Ordered.get?_eq_some_iff (h : m.Ordered) : m.get? n = some v ↔ (n, v) ∈ m.entries := by
  refine ⟨mem_of_get?, fun hmem => ?_⟩
  obtain ⟨before, after, hm⟩ := List.append_of_mem hmem
  have hbefore := (h.split hm).1
  refine Option.map_eq_some_iff.mpr ⟨(n, v), ?_, rfl⟩
  refine List.find?_eq_some_iff_append.mpr ⟨beq_self_eq_true n, before, after, hm, fun b hb => ?_⟩
  have hne : b.1 ≠ n := fun heq => String.lt_irrefl n (heq ▸ hbefore b hb)
  simpa using hne

theorem mem_insertEntry_names {l : List (String × α)} :
    n ∈ (insertEntry k v l).map Prod.fst ↔ n = k ∨ n ∈ l.map Prod.fst := by
  induction l with
  | nil => simp [insertEntry]
  | cons e rest ih =>
    simp only [insertEntry]
    split
    · simp
    · split
      · rename_i hk
        simp [hk]
      · rw [List.map_cons, List.mem_cons, ih, List.map_cons, List.mem_cons]
        exact or_left_comm

theorem find?_insertEntry {l : List (String × α)} :
    (insertEntry k v l).find? (fun e => e.1 == n) =
      if n = k then some (k, v) else l.find? fun e => e.1 == n := by
  induction l with
  | nil =>
    by_cases hn : n = k
    · rw [if_pos hn, insertEntry, List.find?_cons_of_pos (by simp [hn])]
    · rw [if_neg hn, insertEntry, List.find?_cons_of_neg (by simpa using Ne.symm hn)]
  | cons e rest ih =>
    simp only [insertEntry]
    split
    · by_cases hn : n = k
      · rw [if_pos hn, List.find?_cons_of_pos (by simp [hn])]
      · rw [if_neg hn, List.find?_cons_of_neg (by simpa using Ne.symm hn)]
    · split
      · rename_i hk
        by_cases hn : n = k
        · rw [if_pos hn, List.find?_cons_of_pos (by simp [hn])]
        · rw [if_neg hn, List.find?_cons_of_neg (by simpa using Ne.symm hn),
            List.find?_cons_of_neg (by simpa [← hk] using Ne.symm hn)]
      · rename_i hk
        by_cases hn : n = k
        · rw [List.find?_cons_of_neg (by simpa [hn] using Ne.symm hk), ih, if_pos hn, if_pos hn]
        · rw [List.find?_cons, List.find?_cons, ih, if_neg hn, if_neg hn]

theorem get?_insert : (m.insert k v).get? n = if n = k then some v else m.get? n := by
  rw [get?, insert, find?_insertEntry]
  split <;> rfl

theorem get?_mapValues {β : Type} {f : α → β} : (m.mapValues f).get? n = (m.get? n).map f := by
  rw [get?, mapValues, List.find?_map, Option.map_map, get?, Option.map_map]
  rfl

theorem insertEntry_map {β : Type} {f : α → β} {l : List (String × α)} :
    insertEntry k (f v) (l.map fun e => (e.1, f e.2)) =
      (insertEntry k v l).map fun e => (e.1, f e.2) := by
  induction l with
  | nil => rfl
  | cons e rest ih =>
    rw [List.map_cons, insertEntry, insertEntry, ih]
    split
    · rfl
    · split <;> rfl

theorem insert_mapValues {β : Type} {f : α → β} :
    (m.mapValues f).insert k (f v) = (m.insert k v).mapValues f :=
  congrArg NameMap.mk insertEntry_map

theorem mem_insertEntry {l : List (String × α)} {e : String × α}
    (h : e ∈ insertEntry k v l) : e = (k, v) ∨ e ∈ l := by
  induction l with
  | nil => exact .inl (List.mem_singleton.mp h)
  | cons d rest ih =>
    simp only [insertEntry] at h
    split at h
    · exact List.mem_cons.mp h
    · split at h
      · exact (List.mem_cons.mp h).imp_right (List.mem_cons_of_mem d)
      · rcases List.mem_cons.mp h with rfl | h
        · exact .inr List.mem_cons_self
        · exact (ih h).imp_right (List.mem_cons_of_mem d)

theorem pairwise_insertEntry {l : List (String × α)} (h : (l.map Prod.fst).Pairwise (· < ·)) :
    ((insertEntry k v l).map Prod.fst).Pairwise (· < ·) := by
  induction l with
  | nil => simp [insertEntry]
  | cons e rest ih =>
    obtain ⟨hlt, hrest⟩ := List.pairwise_cons.mp h
    simp only [insertEntry]
    split
    · rename_i hk
      refine List.pairwise_cons.mpr ⟨?_, h⟩
      intro a ha
      rcases List.mem_cons.mp ha with rfl | ha
      · exact hk
      · exact String.lt_trans hk (hlt a ha)
    · split
      · rename_i hk
        exact List.pairwise_cons.mpr ⟨fun a ha => hk ▸ hlt a ha, hrest⟩
      · rename_i hnot hne
        refine List.pairwise_cons.mpr ⟨?_, ih hrest⟩
        intro a ha
        rcases mem_insertEntry_names.mp ha with rfl | ha
        · have hle : e.1 ≤ a := String.not_lt.mp hnot
          exact Std.lt_of_le_of_ne hle (Ne.symm hne)
        · exact hlt a ha

theorem Ordered.insert (h : m.Ordered) : (m.insert k v).Ordered := pairwise_insertEntry h

theorem mem_names_insertNew : n ∈ (m.insertNew k v).names ↔ n = k ∨ n ∈ m.names := by
  unfold insertNew
  split
  · rename_i hk
    have hmem : k ∈ m.names := get?_isSome_iff.mp hk
    constructor
    · exact Or.inr
    · intro hx
      rcases hx with rfl | h
      · exact hmem
      · exact h
  · exact mem_insertEntry_names

theorem Ordered.insertNew (h : m.Ordered) : (m.insertNew k v).Ordered := by
  unfold NameMap.insertNew
  split
  · exact h
  · exact pairwise_insertEntry h

/-- Inserting many bindings, the first of each name, adds their names and keeps the order. -/
theorem mem_names_foldl_insertNew {vs : List (String × α)} :
    n ∈ (vs.foldl (fun m v => m.insertNew v.1 v.2) m).names ↔
      n ∈ vs.map Prod.fst ∨ n ∈ m.names := by
  induction vs generalizing m with
  | nil => simp
  | cons v rest ih =>
    rw [List.foldl_cons, ih, mem_names_insertNew, List.map_cons, List.mem_cons, or_left_comm,
      or_assoc]

theorem Ordered.foldl_insertNew {vs : List (String × α)} (h : m.Ordered) :
    (vs.foldl (fun m v => m.insertNew v.1 v.2) m).Ordered := by
  induction vs generalizing m with
  | nil => exact h
  | cons v rest ih => exact ih h.insertNew

end GotoCheck.NameMap
