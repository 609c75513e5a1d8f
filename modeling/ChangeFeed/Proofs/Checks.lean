import ChangeFeed.Proofs.Ends
import Mathlib.Data.List.Nodup

namespace ChangeFeed

theorem check_bind_eq_ok {ε α : Type} {x : Except ε Unit} {f : Unit → Except ε α} {y : α} :
    (x >>= f) = .ok y ↔ x = .ok () ∧ f () = .ok y := by
  rw [bind_eq_ok]
  exact ⟨fun ⟨_, h⟩ => h, fun h => ⟨(), h⟩⟩

theorem refuse_bind_eq_ok {ε α : Type} {p : Prop} [Decidable p] {e : ε} {f : Unit → Except ε α} {y : α} :
    (if p then throw e >>= f else f ()) = .ok y ↔ ¬ p ∧ f () = .ok y := by
  by_cases hp : p
  · rw [if_pos hp]
    exact iff_of_false nofun fun h => h.1 hp
  · rw [if_neg hp]
    exact (and_iff_right hp).symm

theorem forM_eq_ok_iff {ε α : Type} {f : α → Except ε Unit} {l : List α} :
    l.forM f = .ok () ↔ ∀ a ∈ l, f a = .ok () := by
  induction l with
  | nil => exact iff_of_true rfl nofun
  | cons a l ih =>
      rw [List.forall_mem_cons, ← ih]
      exact check_bind_eq_ok

/-- The members of a list differ from one another, and from those seen before. -/
def Apart {α : Type} (seen xs : List α) : Prop := xs.Nodup ∧ ∀ x ∈ xs, x ∉ seen

section

variable {α : Type} {seen xs : List α} {x : α}

theorem apart_nil : Apart seen [] := ⟨List.nodup_nil, nofun⟩

theorem apart_of_nil : Apart [] xs ↔ xs.Nodup := and_iff_left fun _ _ => List.not_mem_nil

theorem apart_cons : Apart seen (x :: xs) ↔ x ∉ seen ∧ Apart (x :: seen) xs := by
  rw [Apart, Apart, List.nodup_cons, List.forall_mem_cons]
  constructor
  · rintro ⟨⟨hx, hnd⟩, hseen, hxs⟩
    refine ⟨hseen, hnd, fun y hy => List.not_mem_cons_of_ne_of_not_mem ?_ (hxs y hy)⟩
    exact fun he => hx (he ▸ hy)
  · rintro ⟨hseen, hnd, hxs⟩
    exact ⟨⟨fun hx => hxs x hx (List.mem_cons_self ..), hnd⟩, hseen,
      fun y hy h => hxs y hy (List.mem_cons_of_mem _ h)⟩

end

end ChangeFeed
