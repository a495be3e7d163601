/-!
Longest runs: how far the characters of one class reach from the start of a text. A run is told by
two facts, that its characters are of the class and that the one behind it is not.
-/

namespace ScriptLexer.Text

/-- The text `run ++ rest` starts with `run`, and no longer stretch of it is of the class. -/
structure LongestRun (p : Char → Bool) (run rest : List Char) : Prop where
  all : ∀ c ∈ run, p c = true
  stops : ∀ c ∈ rest.head?, p c = false

namespace LongestRun

variable {p : Char → Bool} {run rest : List Char}

theorem nil_right (h : ∀ c ∈ run, p c = true) : LongestRun p run [] :=
  ⟨h, by simp⟩

theorem cons_right {c : Char} (h : ∀ c ∈ run, p c = true) (hc : p c = false) :
    LongestRun p run (c :: rest) :=
  ⟨h, by simpa using hc⟩

theorem takeWhile_append (h : LongestRun p run rest) : (run ++ rest).takeWhile p = run := by
  rw [List.takeWhile_append_of_pos h.all]
  cases rest with
  | nil => simp
  | cons c cs =>
      have hc : p c = false := h.stops c rfl
      simp [hc]

theorem dropWhile_append (h : LongestRun p run rest) : (run ++ rest).dropWhile p = rest := by
  rw [List.dropWhile_append_of_pos h.all]
  cases rest with
  | nil => rfl
  | cons c cs =>
      have hc : p c = false := h.stops c rfl
      simp [hc]

/-- The split that scanning makes. -/
theorem of_scan (p : Char → Bool) (cs : List Char) :
    LongestRun p (cs.takeWhile p) (cs.dropWhile p) := by
  constructor
  · exact List.all_eq_true.mp List.all_takeWhile
  · intro c hc
    have h := List.head?_dropWhile_not p cs
    rw [Option.mem_def.mp hc] at h
    exact h

theorem exists_split (p : Char → Bool) (cs : List Char) :
    ∃ run rest, run ++ rest = cs ∧ LongestRun p run rest :=
  ⟨_, _, List.takeWhile_append_dropWhile, of_scan p cs⟩

/-- A character of the class belongs to the run that it starts. -/
theorem exists_cons {c : Char} {cs : List Char} (h : LongestRun p run rest)
    (same : run ++ rest = c :: cs) (hc : p c = true) : ∃ ds, run = c :: ds ∧ ds ++ rest = cs := by
  cases run with
  | nil =>
      rw [List.nil_append] at same
      have stop := h.stops c (by simp [same])
      rw [hc] at stop
      cases stop
  | cons d ds =>
      obtain ⟨rfl, rest_eq⟩ := List.cons.inj same
      exact ⟨ds, rfl, rest_eq⟩

/-- A text has one longest run. -/
theorem unique {run' rest' : List Char} (h : LongestRun p run rest)
    (h' : LongestRun p run' rest') (same : run ++ rest = run' ++ rest') :
    run = run' ∧ rest = rest' := by
  constructor
  · rw [← h.takeWhile_append, same, h'.takeWhile_append]
  · rw [← h.dropWhile_append, same, h'.dropWhile_append]

end LongestRun
end ScriptLexer.Text
