import Mathlib
import Wardrobe.Proofs.Text.Pieces

/-!
# Physical lines

A line ends with a line feed or with a carriage return and a line feed, and the last line may go
without an ending unless it is empty.  `IsLines` says so of a text and its lines, and determines the
lines: they are those that `Text.lines` gives (`isLines_iff`).
-/

namespace Wardrobe.Text

/-- The lines of a text, without their endings. -/
inductive IsLines : Text → List Text → Prop
  | nil : IsLines [] []
  | last {l : Text} (hne : l ≠ []) (hl : '\n' ∉ l) : IsLines l [l]
  | feed {l t : Text} {ls : List Text} (hl : '\n' ∉ l) (hreturn : l.getLast? ≠ some '\r')
      (ht : IsLines t ls) : IsLines (l ++ '\n' :: t) (l :: ls)
  | returnFeed {l t : Text} {ls : List Text} (hl : '\n' ∉ l) (ht : IsLines t ls) :
      IsLines (l ++ '\r' :: '\n' :: t) (l :: ls)

variable {l t : Text} {ls : List Text}

/-- A text without a line feed is one line, unless it is empty. -/
lemma lines_of_notMem (hl : '\n' ∉ l) : lines l = if l = [] then [] else [l] := by
  simp only [lines, List.splitOn_eq_singleton hl, List.dropLast_singleton, List.map_nil,
    List.getLast?_singleton, Option.getD_some, List.nil_append]

/-- The first line ends at the first line feed. -/
lemma lines_append_feed (hl : '\n' ∉ l) (t : Text) :
    lines (l ++ '\n' :: t) = dropReturn l :: lines t := by
  obtain ⟨q, qs, hq⟩ := List.exists_cons_of_ne_nil (List.splitOn_ne_nil '\n' t)
  have hsplit : (l ++ '\n' :: t).splitOn '\n' = l :: t.splitOn '\n' := by
    rw [List.splitOn_append_cons_self, List.splitOn_eq_singleton hl]
    rfl
  simp only [lines, hsplit, hq, List.dropLast_cons_cons, List.map_cons, List.getLast?_cons_cons,
    List.cons_append]

/-- One carriage return before the line feed belongs to the ending. -/
lemma dropReturn_cases (l : Text) :
    (l.getLast? ≠ some '\r' ∧ dropReturn l = l) ∨ l = dropReturn l ++ ['\r'] := by
  unfold dropReturn
  split
  · next hlast =>
    obtain ⟨rest, rfl⟩ := List.getLast?_eq_some_iff.mp hlast
    exact Or.inr (by rw [List.dropLast_concat])
  · next hlast => exact Or.inl ⟨hlast, rfl⟩

/-- A line that is split off has the lines of the rest behind it. -/
lemma IsLines.append_feed (hl : '\n' ∉ l) (ht : IsLines t ls) :
    IsLines (l ++ '\n' :: t) (dropReturn l :: ls) := by
  rcases dropReturn_cases l with ⟨hreturn, hdrop⟩ | hdrop
  · rw [hdrop]
    exact .feed hl hreturn ht
  · have hnot : '\n' ∉ dropReturn l := fun h => hl (hdrop ▸ List.mem_append_left _ h)
    have htext : l ++ '\n' :: t = dropReturn l ++ '\r' :: '\n' :: t := by
      conv_lhs => rw [hdrop]
      rw [List.append_assoc, List.singleton_append]
    rw [htext]
    exact .returnFeed hnot ht

/-- The lines that a text is cut into are its physical lines. -/
lemma isLines_lines (t : Text) : IsLines t (lines t) := by
  induction hlength : t.length using Nat.strong_induction_on generalizing t with
  | _ n ih =>
    by_cases hmem : '\n' ∈ t
    · obtain ⟨l, rest, rfl, hl⟩ := List.eq_append_cons_of_mem hmem
      have hshort : rest.length < n := by
        rw [← hlength, List.length_append, List.length_cons]
        omega
      rw [lines_append_feed hl]
      exact (ih _ hshort rest rfl).append_feed hl
    · rw [lines_of_notMem hmem]
      split
      · next hnil => exact hnil ▸ .nil
      · next hne => exact .last hne hmem

/-- A text has no other physical lines than those that it is cut into. -/
theorem isLines_iff : IsLines t ls ↔ lines t = ls := by
  refine ⟨fun h => ?_, fun h => h ▸ isLines_lines t⟩
  induction h with
  | nil => rfl
  | last hne hl => rw [lines_of_notMem hl, if_neg hne]
  | feed hl hreturn _ ih => rw [lines_append_feed hl, dropReturn, if_neg hreturn, ih]
  | @returnFeed l t ls hl _ ih =>
    have hnot : '\n' ∉ l ++ ['\r'] := by simpa using hl
    have hsplit := lines_append_feed hnot t
    rw [List.append_assoc, List.singleton_append, dropReturn, ih] at hsplit
    simpa using hsplit

end Wardrobe.Text
