namespace BeaconApi.Text

variable {α : Type} [DecidableEq α] {separator : α} {run : List α}

theorem all_ne (h : separator ∉ run) : ∀ x ∈ run, decide (x ≠ separator) = true := by
  intro x hx
  refine decide_eq_true ?_
  rintro rfl
  exact h hx

theorem takeWhile_ne_append (h : separator ∉ run) (rest : List α) :
    (run ++ separator :: rest).takeWhile (· ≠ separator) = run := by
  rw [List.takeWhile_append_of_pos (all_ne h)]
  simp

theorem dropWhile_ne_append (h : separator ∉ run) (rest : List α) :
    (run ++ separator :: rest).dropWhile (· ≠ separator) = separator :: rest := by
  rw [List.dropWhile_append_of_pos (all_ne h)]
  simp

theorem takeWhile_ne (h : separator ∉ run) : run.takeWhile (· ≠ separator) = run := by
  have htake : (run ++ []).takeWhile (· ≠ separator) = run ++ [] :=
    List.takeWhile_append_of_pos (all_ne h)
  rwa [List.append_nil] at htake

theorem dropWhile_ne (h : separator ∉ run) : run.dropWhile (· ≠ separator) = [] := by
  have hdrop : (run ++ []).dropWhile (· ≠ separator) = [] := List.dropWhile_append_of_pos (all_ne h)
  rwa [List.append_nil] at hdrop

end BeaconApi.Text
