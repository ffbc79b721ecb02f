import Mathlib.Data.List.DropRight
import Mathlib.Tactic
import MeshDiffusion.Text.Blank

/-!
Trimmed texts, parts of lines and lines.

* `Text.trim_eq_nil_iff`: nothing is left of a text exactly when it is blank;
  `Text.trim_append_blank` and `Text.trim_between`: blank ends go, and what stands between two
  trimmed texts stays;
* `Text.splitFirst_eq`: the two parts of a text at its first separator;
* `Text.splitLines_append`: the first line of a text; `Text.splitLines_flatMap`: lines that are
  written one by one are read back.
-/

namespace MeshDiffusion.Text

variable {cs ds bs : List Char}

/-! ### White space at the ends -/

lemma trim_eq (cs : List Char) : trim cs = (cs.dropWhile isBlank).rdropWhile isBlank := rfl

/-- Nothing is left of a text when all of it is white space. -/
lemma trim_eq_nil_iff : trim cs = [] ↔ ∀ c ∈ cs, isBlank c = true := by
  rw [trim_eq, List.rdropWhile_eq_nil_iff]
  refine ⟨fun h => List.dropWhile_eq_nil_iff.1 ?_, fun h c hc =>
    h c ((List.dropWhile_sublist isBlank).subset hc)⟩
  -- The first character that is left would not be blank.
  cases hrest : cs.dropWhile isBlank with
  | nil => rfl
  | cons c rest =>
      have hblank := h c (hrest ▸ List.mem_cons_self)
      have hfirst := List.head?_dropWhile_not isBlank cs
      simp [hrest, hblank] at hfirst

lemma rdropWhile_append_blank (h : ∀ c ∈ bs, isBlank c = true) :
    (cs ++ bs).rdropWhile isBlank = cs.rdropWhile isBlank := by
  rw [List.rdropWhile, List.rdropWhile, List.reverse_append,
    List.dropWhile_append_of_pos fun c hc => h c (List.mem_reverse.1 hc)]

/-- White space at the end makes no difference. -/
lemma trim_append_blank (h : ∀ c ∈ bs, isBlank c = true) : trim (cs ++ bs) = trim cs := by
  rw [trim_eq, trim_eq, List.dropWhile_append]
  split_ifs with hblank
  · rw [List.isEmpty_iff.1 hblank, List.dropWhile_eq_nil_iff.2 h]
  · exact rdropWhile_append_blank h

/-- White space at the start makes no difference. -/
lemma trim_blank_append (h : ∀ c ∈ bs, isBlank c = true) : trim (bs ++ cs) = trim cs := by
  rw [trim_eq, trim_eq, List.dropWhile_append_of_pos h]

/-- A trimmed text has no white space at its ends. -/
lemma dropWhile_of_trim (h : trim cs = cs) :
    cs.dropWhile isBlank = cs ∧ cs.rdropWhile isBlank = cs := by
  have hstart : cs.dropWhile isBlank = cs := by
    refine (List.dropWhile_suffix isBlank).eq_of_length_le ?_
    calc cs.length = (trim cs).length := by rw [h]
      _ ≤ (cs.dropWhile isBlank).length := (List.rdropWhile_prefix isBlank _).length_le
  refine ⟨hstart, ?_⟩
  rwa [trim_eq, hstart] at h

/-- What stands between two trimmed texts stays. -/
lemma trim_between (hcs : trim cs = cs) (hne : cs ≠ []) (hds : trim ds = ds) (hne' : ds ≠ [])
    (bs : List Char) : trim (cs ++ bs ++ ds) = cs ++ bs ++ ds := by
  have hstart : (cs ++ bs ++ ds).dropWhile isBlank = cs ++ bs ++ ds := by
    rw [List.append_assoc, List.dropWhile_append, (dropWhile_of_trim hcs).1, if_neg (by simpa)]
  have hend : (cs ++ bs ++ ds).rdropWhile isBlank = cs ++ bs ++ ds := by
    have hreverse : ds.reverse.dropWhile isBlank = ds.reverse :=
      List.reverse_eq_iff.1 (dropWhile_of_trim hds).2
    rw [List.rdropWhile, List.reverse_append, List.dropWhile_append, hreverse, if_neg (by simpa)]
    simp
  rw [trim_eq, hstart, hend]

/-! ### Parts of a line -/

/-- A text is cut at its first separator, if it has one. -/
lemma splitFirst_eq (sep : Char) (cs : List Char) :
    splitFirst sep cs = (cs.takeWhile (· ≠ sep),
      if sep ∈ cs then some (cs.dropWhile (· ≠ sep)).tail else none) := by
  induction cs with
  | nil => simp [splitFirst]
  | cons c cs ih =>
      rw [splitFirst]
      by_cases hc : c = sep
      · simp [hc]
      · simp [hc, ih, Ne.symm hc]

/-! ### Lines -/

lemma splitLinesFrom_append (h : '\n' ∉ ds) (line cs : List Char) :
    splitLinesFrom line (ds ++ '\n' :: cs)
      = dropReturn (line.reverse ++ ds) :: splitLinesFrom [] cs := by
  induction ds generalizing line with
  | nil => simp [splitLinesFrom]
  | cons d ds ih =>
      obtain ⟨hd, hds⟩ := not_or.1 (mt List.mem_cons.2 h)
      rw [List.cons_append, splitLinesFrom, if_neg (Ne.symm hd), ih hds]
      simp

/-- The first line of a text ends at the first line feed. -/
lemma splitLines_append (h : '\n' ∉ ds) (cs : List Char) :
    splitLines (ds ++ '\n' :: cs) = dropReturn ds :: splitLines cs :=
  splitLinesFrom_append h [] cs

/-- Lines that are written one by one are read back, without a carriage return at their ends. -/
lemma splitLines_flatMap {lines : List (List Char)} (h : ∀ line ∈ lines, '\n' ∉ line) :
    splitLines (lines.flatMap (· ++ ['\n'])) = lines.map dropReturn := by
  induction lines with
  | nil => rfl
  | cons line lines ih =>
      obtain ⟨hline, hlines⟩ := List.forall_mem_cons.1 h
      rw [List.flatMap_cons, List.append_assoc, List.singleton_append, splitLines_append hline,
        ih hlines, List.map_cons]

end MeshDiffusion.Text
