import Mathlib.Data.List.Forall2

/-! Facts about `Except` and about lists that say nothing of programs. -/
namespace Except
variable {ε α β : Type}

theorem bind_eq_ok_iff {x : Except ε α} {f : α → Except ε β} {b : β} :
    (x >>= f) = .ok b ↔ ∃ a, x = .ok a ∧ f a = .ok b := by
  cases x <;> simp [bind, Except.bind]

theorem map_eq_ok_iff {x : Except ε α} {f : α → β} {b : β} :
    f <$> x = .ok b ↔ ∃ a, x = .ok a ∧ f a = b := by
  cases x <;> simp [Functor.map, Except.map]

theorem mapError_bind (x : Except ε α) (f : α → Except ε β) (g : ε → ε) :
    (x >>= f).mapError g = x.mapError g >>= fun a => (f a).mapError g := by
  cases x <;> rfl

theorem mapError_map (x : Except ε α) (f : α → β) (g : ε → ε) :
    (f <$> x).mapError g = f <$> x.mapError g := by
  cases x <;> rfl

end Except

namespace List

theorem drop_length_takeWhile {α : Type} (p : α → Bool) (l : List α) :
    l.drop (l.takeWhile p).length = l.dropWhile p := by
  have h : (l.takeWhile p ++ l.dropWhile p).drop (l.takeWhile p).length = l.dropWhile p :=
    drop_left
  rwa [takeWhile_append_dropWhile] at h

theorem foldl_min_le (rs : List Nat) (l : Nat) : rs.foldl min l ≤ l := by
  induction rs generalizing l with
  | nil => exact Nat.le_refl _
  | cons r rest ih => exact Nat.le_trans (ih (min l r)) (Nat.min_le_left l r)

theorem le_foldl_min {rs : List Nat} {n l : Nat} (hl : n ≤ l) (hr : ∀ r ∈ rs, n ≤ r) :
    n ≤ rs.foldl min l := by
  induction rs generalizing l with
  | nil => exact hl
  | cons r rest ih =>
    exact ih (Nat.le_min.mpr ⟨hl, hr r mem_cons_self⟩) fun q hq => hr q (mem_cons_of_mem r hq)

theorem forall₂_iff_of_or {α β : Type} {p : β → Prop} {a b : α → Prop} {xs : List α} {ys : List β}
    (h : Forall₂ (fun x y => p y ↔ a x ∨ b x) xs ys) :
    Forall₂ (fun x y => p y ↔ a x) xs ys ↔ ∀ x ∈ xs, b x → a x := by
  induction h with
  | nil => simp
  | cons h _ ih =>
    rw [forall₂_cons, forall_mem_cons, ih, h, or_iff_left_iff_imp]

end List
