namespace ChangeFeed

def chunks {α : Type} (n : Nat) (l : List α) : List (List α) :=
  go l.length l
where
  go : Nat → List α → List (List α)
    | 0, _ => []
    | _, [] => []
    | fuel + 1, x :: rest => (x :: rest).take n :: go fuel ((x :: rest).drop n)

theorem flatten_chunks_go {α : Type} {n : Nat} (hn : 0 < n) (fuel : Nat) {l : List α}
    (h : l.length ≤ fuel) : (chunks.go n fuel l).flatten = l := by
  induction fuel generalizing l with
  | zero =>
      have hl : l = [] := List.eq_nil_of_length_eq_zero (by omega)
      rw [hl]
      rfl
  | succ fuel ih =>
      cases l with
      | nil => rfl
      | cons x rest =>
          have hl : ((x :: rest).drop n).length ≤ fuel := by
            rw [List.length_drop]
            simp only [List.length_cons] at h ⊢
            omega
          rw [chunks.go, List.flatten_cons, ih hl, List.take_append_drop]

theorem flatten_chunks {α : Type} {n : Nat} (hn : 0 < n) (l : List α) : (chunks n l).flatten = l :=
  flatten_chunks_go hn l.length (Nat.le_refl _)

end ChangeFeed
