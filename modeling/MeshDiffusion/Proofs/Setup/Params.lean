import Mathlib.Tactic
import MeshDiffusion.Proofs.Text.Lines
import MeshDiffusion.Setup.Params

/-!
The grammar of parameters.

What counts of a line is `ParamLine.content`, the part before the first `#` without the white space
at its ends. A line is accepted (`ParamLine.Accepted`) when this is empty, or has an `=` with
something before it; `ParamLine.key` and `ParamLine.value` are the two sides of the first `=`.

* `ParamLine.read_eq`: a line is read by the grammar;
* `Params.keys_assign`, `Params.lookup_assign`: what assignments one after the other leave, each key
  at its first place and with its last value; `Params.nodup_keys_insert`: no key twice;
* `Params.lookup_filter`, `Params.lookup_perm`: neither entries of other keys nor the order of
  entries count for the value of a key;
* `Params.parseLines_eq_ok_iff`, `Params.parseLines_eq_error_iff`: lines are all accepted and set
  one after the other, or the first one that is not is named;
* `Params.Written`: tables that are written line by line, with blank lines and comments;
* `Params.parse_exact`: when a text is read, into which table, and that a table that is written line
  by line is read back.
-/

namespace MeshDiffusion

/-! ### The grammar of a line -/

namespace ParamLine

/-- What counts of a line: the part before the first `#`, without white space at its ends. -/
def content (line : List Char) : List Char := Text.trim (line.takeWhile (· ≠ '#'))

/-- A line is accepted when nothing of it counts, or when something stands before an `=`. -/
def Accepted (line : List Char) : Prop :=
  content line = [] ∨
    '=' ∈ content line ∧ ∃ c ∈ (content line).takeWhile (· ≠ '='), Text.isBlank c = false

/-- The part before the first `=`. -/
def key (line : List Char) : List Char := Text.trim ((content line).takeWhile (· ≠ '='))

/-- The part behind the first `=`. -/
def value (line : List Char) : List Char := Text.trim ((content line).dropWhile (· ≠ '=')).tail

variable {line : List Char}

lemma accepted_iff :
    Accepted line ↔ content line = [] ∨ '=' ∈ content line ∧ key line ≠ [] := by
  rw [Accepted, key, Ne, Text.trim_eq_nil_iff]
  push Not
  simp only [Bool.not_eq_true]

/-- A line is read by the grammar. -/
lemma read_eq (line : List Char) : read line =
    if content line = [] then .blank
    else if '=' ∈ content line ∧ key line ≠ [] then
      .entry (String.ofList (key line)) (String.ofList (value line))
    else .malformed := by
  have hbody : Text.trim (Text.splitFirst '#' line).1 = content line := by
    rw [Text.splitFirst_eq, content]
  rw [read, hbody, Text.splitFirst_eq, key, value]
  simp only [List.isEmpty_iff]
  refine if_congr Iff.rfl rfl ?_
  by_cases hsep : '=' ∈ content line
  · rw [if_pos hsep]
    by_cases hkey : Text.trim ((content line).takeWhile (· ≠ '=')) = []
    · exact (if_pos hkey).trans (if_neg fun h => h.2 hkey).symm
    · exact (if_neg hkey).trans (if_pos ⟨hsep, hkey⟩).symm
  · rw [if_neg hsep]
    exact (if_neg fun h => hsep h.1).symm

end ParamLine

namespace Params

open ParamLine

/-- The assignments of lines, one for each line with something that counts. -/
def assignments (lines : List (List Char)) : List (String × String) :=
  (lines.filter fun line => content line ≠ []).map fun line =>
    (String.ofList (key line), String.ofList (value line))

/-! ### Assignments one after the other -/

variable {es as : List (String × String)} {k v : String}

/-- Entries after assignments one after the other. -/
def assign (es as : List (String × String)) : List (String × String) :=
  as.foldl (fun es a => insert a.1 a.2 es) es

lemma insert_of_not_mem (v : String) (h : k ∉ es.map Prod.fst) :
    insert k v es = es ++ [(k, v)] := by
  induction es with
  | nil => rfl
  | cons e es ih =>
      obtain ⟨he, hes⟩ := not_or.1 (mt List.mem_cons.2 h)
      rw [insert, if_neg (Ne.symm he), ih hes, List.cons_append]

/-- A key keeps its place, and a new one comes last. -/
lemma keys_insert (k v : String) (es : List (String × String)) :
    (insert k v es).map Prod.fst
      = if k ∈ es.map Prod.fst then es.map Prod.fst else es.map Prod.fst ++ [k] := by
  induction es with
  | nil => simp [insert]
  | cons e es ih =>
      rw [insert]
      by_cases he : e.1 = k
      · simp [he]
      · rw [if_neg he, List.map_cons, ih]
        simp only [List.map_cons, List.mem_cons, Ne.symm he, false_or]
        split_ifs <;> rfl

/-- Setting a value repeats no key. -/
lemma nodup_keys_insert (h : (es.map Prod.fst).Nodup) (k v : String) :
    ((insert k v es).map Prod.fst).Nodup := by
  rw [keys_insert]
  split_ifs with hmem
  · exact h
  · exact List.nodup_append'.2 ⟨h, List.nodup_singleton k, by simpa using hmem⟩

lemma lookup_cons (e : String × String) (es : List (String × String)) (x : String) :
    (e :: es).lookup x = if x = e.1 then some e.2 else es.lookup x := by
  rw [List.lookup_cons]
  split_ifs with h
  · rw [beq_iff_eq.2 h]
  · rw [beq_eq_false_iff_ne.2 h]

/-- Entries of other keys do not count for the value of a key. -/
lemma lookup_filter {p : String → Bool} {x : String} (hx : p x = true)
    (es : List (String × String)) : (es.filter fun e => p e.1).lookup x = es.lookup x := by
  induction es with
  | nil => rfl
  | cons e es ih =>
      rw [List.filter_cons]
      split_ifs with he
      · rw [lookup_cons, lookup_cons, ih]
      · rw [lookup_cons, ih, if_neg fun h : x = e.1 => he (h ▸ hx)]

/-- Where no key stands twice, the order of entries does not count. -/
lemma lookup_perm {es es' : List (String × String)} (h : es.Perm es')
    (hkeys : (es.map Prod.fst).Nodup) (x : String) : es.lookup x = es'.lookup x := by
  induction h with
  | nil => rfl
  | cons e _ ih => rw [lookup_cons, lookup_cons, ih (List.nodup_cons.1 hkeys).2]
  | swap e e' es =>
      have hne : e'.1 ≠ e.1 := by
        rintro heq
        simp [heq] at hkeys
      simp only [lookup_cons]
      split_ifs with hx' hx
      · exact absurd (hx'.symm.trans hx) hne
      all_goals rfl
  | trans h _ ih ih' => exact (ih hkeys).trans (ih' ((h.map _).nodup_iff.1 hkeys))

lemma lookup_insert (k v x : String) (es : List (String × String)) :
    (insert k v es).lookup x = if x = k then some v else es.lookup x := by
  induction es with
  | nil => exact lookup_cons (k, v) [] x
  | cons e es ih =>
      rw [insert]
      split_ifs with he hx hx
      · rw [lookup_cons, if_pos hx]
      · rw [lookup_cons, lookup_cons, if_neg hx, if_neg (he ▸ hx)]
      · rw [lookup_cons, if_neg fun h => he (h.symm.trans hx), ih, if_pos hx]
      · rw [lookup_cons, lookup_cons, ih, if_neg hx]

lemma assign_append (es as bs : List (String × String)) :
    assign es (as ++ bs) = assign (assign es as) bs := List.foldl_append

lemma assign_singleton (es : List (String × String)) (a : String × String) :
    assign es [a] = insert a.1 a.2 es := rfl

/-- The keys stand in the order in which they first appear. -/
lemma keys_assign (as : List (String × String)) :
    (assign [] as).map Prod.fst = (as.map Prod.fst).eraseDups := by
  induction as using List.reverseRecOn with
  | nil => rfl
  | append_singleton as a ih =>
      rw [assign_append, assign_singleton, keys_insert, ih, List.map_append, List.map_singleton,
        List.eraseDups_append]
      simp only [List.mem_eraseDups]
      split_ifs with h <;> simp [List.removeAll, h, List.eraseDups_cons]

/-- A key has the value that it was assigned last. -/
lemma lookup_assign (as : List (String × String)) (x : String) :
    (assign [] as).lookup x = as.reverse.lookup x := by
  induction as using List.reverseRecOn with
  | nil => rfl
  | append_singleton as a ih =>
      rw [assign_append, assign_singleton, lookup_insert, ih, List.reverse_append,
        List.reverse_singleton, List.singleton_append, lookup_cons]

/-- No key stands twice. -/
lemma nodup_keys_assign (as : List (String × String)) :
    ((assign [] as).map Prod.fst).Nodup := by
  induction as using List.reverseRecOn with
  | nil => exact List.nodup_nil
  | append_singleton as a ih =>
      rw [assign_append, assign_singleton]
      exact nodup_keys_insert ih _ _

/-- Assignments of different keys are kept as they are. -/
lemma assign_of_nodup (h : (as.map Prod.fst).Nodup) : assign [] as = as := by
  induction as using List.reverseRecOn with
  | nil => rfl
  | append_singleton as a ih =>
      rw [List.map_append, List.map_singleton] at h
      obtain ⟨has, -, hnew⟩ := List.nodup_append'.1 h
      rw [assign_append, assign_singleton, ih has,
        insert_of_not_mem _ fun hmem => hnew hmem (List.mem_singleton_self _)]

/-! ### Line after line -/

variable {K : Type} {n : ℕ} {t : Params} {line : List Char} {lines : List (List Char)}
  {e : ParamFault K}

lemma assignments_cons (line : List Char) (lines : List (List Char)) :
    assignments (line :: lines) = assignments [line] ++ assignments lines := by
  rw [assignments, assignments, assignments, ← List.map_append, ← List.filter_append,
    List.singleton_append]

/-- A line that is accepted is set, if something of it counts. -/
lemma parseLines_cons (h : Accepted line) (n : ℕ) (t : Params) (lines : List (List Char)) :
    (parseLines n t (line :: lines) : Except (ParamFault K) Params)
      = parseLines (n + 1) ⟨assign t.entries (assignments [line])⟩ lines := by
  rw [parseLines, read_eq]
  by_cases hempty : content line = []
  · simp [hempty, assignments, assign]
  · have hentry := (accepted_iff.1 h).resolve_left hempty
    rw [if_neg hempty, if_pos hentry]
    simp [hempty, assignments, assign, set]

/-- A line that is not accepted ends the reading. -/
lemma parseLines_cons_of_not_accepted (h : ¬Accepted line) (n : ℕ) (t : Params)
    (lines : List (List Char)) : (parseLines n t (line :: lines) : Except (ParamFault K) Params)
      = .error (.malformed n (String.ofList (Text.trim line))) := by
  rw [accepted_iff, not_or] at h
  rw [parseLines, read_eq, if_neg h.1, if_neg h.2]

/-- Lines that are all accepted are set one after the other. -/
lemma parseLines_eq_ok_iff {t' : Params} :
    (parseLines n t lines : Except (ParamFault K) Params) = .ok t' ↔
      (∀ line ∈ lines, Accepted line) ∧ t' = ⟨assign t.entries (assignments lines)⟩ := by
  induction lines generalizing n t with
  | nil => exact ⟨fun h => ⟨by simp, (Except.ok.inj h).symm⟩, fun h => congrArg _ h.2.symm⟩
  | cons line lines ih =>
      by_cases hline : Accepted line
      · rw [parseLines_cons hline, ih, assignments_cons line lines, assign_append]
        simp [hline]
      · rw [parseLines_cons_of_not_accepted hline]
        simp [hline]

/-- The first line that is not accepted is named. -/
lemma parseLines_eq_error_iff : parseLines n t lines = .error e ↔
    ∃ before line after, lines = before ++ line :: after ∧ (∀ l ∈ before, Accepted l) ∧
      ¬Accepted line ∧ e = .malformed (n + before.length) (String.ofList (Text.trim line)) := by
  induction lines generalizing n t with
  | nil => simp [parseLines]
  | cons line lines ih =>
      by_cases hline : Accepted line
      · rw [parseLines_cons hline, ih]
        constructor
        · rintro ⟨before, l, after, rfl, hbefore, hl, rfl⟩
          refine ⟨line :: before, l, after, rfl, List.forall_mem_cons.2 ⟨hline, hbefore⟩, hl, ?_⟩
          rw [List.length_cons, Nat.add_assoc, Nat.add_comm 1]
        · rintro ⟨before, l, after, hlines, hbefore, hl, rfl⟩
          cases before with
          | nil =>
              obtain ⟨rfl, -⟩ := List.cons.inj hlines
              exact absurd hline hl
          | cons b before =>
              obtain ⟨rfl, hrest⟩ := List.cons.inj hlines
              refine ⟨before, l, after, hrest, (List.forall_mem_cons.1 hbefore).2, hl, ?_⟩
              rw [List.length_cons, Nat.add_assoc, Nat.add_comm 1]
      · rw [parseLines_cons_of_not_accepted hline]
        constructor
        · rintro ⟨⟩
          exact ⟨[], line, lines, rfl, by simp, hline, rfl⟩
        · rintro ⟨before, l, after, hlines, hbefore, hl, rfl⟩
          cases before with
          | nil =>
              obtain ⟨rfl, -⟩ := List.cons.inj hlines
              rfl
          | cons b before =>
              obtain ⟨rfl, -⟩ := List.cons.inj hlines
              exact absurd (List.forall_mem_cons.1 hbefore).1 hline

/-! ### Written tables -/

/-- An entry can be written in a line: both sides are trimmed, the key is not empty, and neither
holds a character that would end it. -/
structure Writable (e : String × String) : Prop where
  key_trimmed : Text.trim e.1.toList = e.1.toList
  key_nonempty : e.1.toList ≠ []
  key_plain : '=' ∉ e.1.toList ∧ '#' ∉ e.1.toList ∧ '\n' ∉ e.1.toList
  value_trimmed : Text.trim e.2.toList = e.2.toList
  value_plain : '#' ∉ e.2.toList ∧ '\n' ∉ e.2.toList

/-- The line of an entry. -/
def entryLine (e : String × String) : List Char := e.1.toList ++ ' ' :: '=' :: ' ' :: e.2.toList

/-- Entries written in lines, with blank lines and comments between them. -/
inductive Written : List (String × String) → List (List Char) → Prop
  | nil : Written [] []
  | entry {es : List (String × String)} {lines : List (List Char)} (e : String × String)
      (h : Written es lines) : Written (e :: es) (entryLine e :: lines)
  | skip {es : List (String × String)} {lines : List (List Char)} {line : List Char}
      (hblank : ∀ c ∈ line.takeWhile (· ≠ '#'), Text.isBlank c = true) (hplain : '\n' ∉ line)
      (h : Written es lines) : Written es (line :: lines)

/-- A carriage return at the end of a line makes no difference. -/
lemma content_dropReturn (line : List Char) : content (Text.dropReturn line) = content line := by
  rw [Text.dropReturn]
  split_ifs with hlast
  · obtain ⟨start, rfl⟩ := List.getLast?_eq_some_iff.1 hlast
    rw [List.dropLast_concat, content, content, List.takeWhile_append]
    split_ifs with hall
    · rw [(List.takeWhile_prefix _).eq_of_length hall]
      exact (Text.trim_append_blank (List.forall_mem_singleton.2 (by decide))).symm
    · rfl
  · rfl

lemma accepted_dropReturn : Accepted (Text.dropReturn line) ↔ Accepted line := by
  rw [Accepted, Accepted, content_dropReturn]

lemma assignments_map_dropReturn (lines : List (List Char)) :
    assignments (lines.map Text.dropReturn) = assignments lines := by
  simp [assignments, List.filter_map, Function.comp_def, key, value, content_dropReturn]

/-- What counts of the line of an entry: the key, the separator and something with the value. -/
lemma content_entryLine {e : String × String} (h : Writable e) :
    ∃ rest, content (entryLine e) = e.1.toList ++ ' ' :: '=' :: rest ∧
      Text.trim rest = e.2.toList := by
  have hplain : ∀ c ∈ entryLine e, decide (c ≠ '#') = true := by
    intro c hc
    rw [decide_eq_true_eq]
    rintro rfl
    simp [entryLine, h.key_plain.2.1, h.value_plain.1] at hc
  have hblank : ∀ c ∈ [' '], Text.isBlank c = true := List.forall_mem_singleton.2 (by decide)
  rw [content, List.takeWhile_eq_self_iff.2 hplain, entryLine]
  by_cases hvalue : e.2.toList = []
  · refine ⟨[], ?_, by rw [hvalue]; decide⟩
    have hsep : Text.trim ['='] = ['='] := by decide
    have hline := Text.trim_between h.key_trimmed h.key_nonempty hsep (by decide) [' ']
    have hend : Text.trim ((e.1.toList ++ [' '] ++ ['=']) ++ [' '])
        = Text.trim (e.1.toList ++ [' '] ++ ['=']) := Text.trim_append_blank hblank
    rw [hvalue]
    simpa using hend.trans hline
  · refine ⟨' ' :: e.2.toList, ?_, ?_⟩
    · simpa using
        Text.trim_between h.key_trimmed h.key_nonempty h.value_trimmed hvalue [' ', '=', ' ']
    · exact (Text.trim_blank_append hblank).trans h.value_trimmed

lemma accepted_entryLine {e : String × String} (h : Writable e) :
    Accepted (entryLine e) ∧ key (entryLine e) = e.1.toList ∧ value (entryLine e) = e.2.toList := by
  obtain ⟨rest, hcontent, hrest⟩ := content_entryLine h
  have hbefore : ∀ c ∈ e.1.toList ++ [' '], decide (c ≠ '=') = true := by
    intro c hc
    rw [decide_eq_true_eq]
    rintro rfl
    simp [h.key_plain.1] at hc
  have hsplit : content (entryLine e) = (e.1.toList ++ [' ']) ++ '=' :: rest := by simp [hcontent]
  have hkey : key (entryLine e) = e.1.toList := by
    rw [key, hsplit, List.takeWhile_append_of_pos hbefore, List.takeWhile_cons_of_neg (by simp),
      List.append_nil, Text.trim_append_blank (List.forall_mem_singleton.2 (by decide)),
      h.key_trimmed]
  refine ⟨accepted_iff.2 (.inr ⟨by simp [hcontent], hkey ▸ h.key_nonempty⟩), hkey, ?_⟩
  rw [value, hsplit, List.dropWhile_append_of_pos hbefore, List.dropWhile_cons_of_neg (by simp),
    List.tail_cons, hrest]

/-- A written table has accepted lines, without a line feed in them, that assign its entries. -/
lemma Written.accepted (h : Written es lines) (hes : ∀ e ∈ es, Writable e) :
    (∀ line ∈ lines, '\n' ∉ line) ∧ (∀ line ∈ lines, Accepted line) ∧ assignments lines = es := by
  induction h with
  | nil => exact ⟨by simp, by simp, rfl⟩
  | @entry es lines e _ ih =>
      obtain ⟨he, hrest⟩ := List.forall_mem_cons.1 hes
      obtain ⟨hfeed, haccepted, hassigned⟩ := ih hrest
      obtain ⟨hline, hkey, hvalue⟩ := accepted_entryLine he
      have hcontent : content (entryLine e) ≠ [] := by
        obtain ⟨rest, hcontent, -⟩ := content_entryLine he
        simp [hcontent]
      refine ⟨List.forall_mem_cons.2 ⟨?_, hfeed⟩, List.forall_mem_cons.2 ⟨hline, haccepted⟩, ?_⟩
      · simp [entryLine, he.key_plain.2.2, he.value_plain.2]
      · rw [assignments_cons, hassigned]
        simp [assignments, hcontent, hkey, hvalue]
  | @skip es lines line hblank hplain _ ih =>
      obtain ⟨hfeed, haccepted, hassigned⟩ := ih hes
      have hcontent : content line = [] := Text.trim_eq_nil_iff.2 hblank
      refine ⟨List.forall_mem_cons.2 ⟨hplain, hfeed⟩,
        List.forall_mem_cons.2 ⟨.inl hcontent, haccepted⟩, ?_⟩
      rw [assignments_cons, hassigned]
      simp [assignments, hcontent]

/-! ### Texts -/

/-- **A text is read by its grammar.** It is read exactly when every line, up to its first `#` and
without the white space at its ends, is empty or has an `=` with something before the first one. The
keys of the table are then what stands there, in the order in which they first appear and each once,
and the value of a key is what stands behind the `=` of the last line with that key. Otherwise the
first line that is not accepted is named, by its number among all lines and its whole text. And a
table with different keys that is written line by line, with blank lines and comments anywhere, is
read back as it was. -/
theorem parse_exact {K : Type} (text : String) :
    let lines := Text.splitLines text.toList
    ((∃ t, (parse text : Except (ParamFault K) Params) = .ok t) ↔ ∀ line ∈ lines, Accepted line) ∧
    (∀ t, (parse text : Except (ParamFault K) Params) = .ok t →
      t.entries.map Prod.fst = ((assignments lines).map Prod.fst).eraseDups ∧
      (t.entries.map Prod.fst).Nodup ∧
      ∀ key, t.entries.lookup key = (assignments lines).reverse.lookup key) ∧
    (∀ e : ParamFault K, parse text = .error e ↔
      ∃ before line after, lines = before ++ line :: after ∧ (∀ l ∈ before, Accepted l) ∧
        ¬Accepted line ∧ e = .malformed (before.length + 1) (String.ofList (Text.trim line))) ∧
    (∀ t : Params, (∀ e ∈ t.entries, Writable e) → (t.entries.map Prod.fst).Nodup →
      ∀ written, Written t.entries written →
        (parse (String.ofList (written.flatMap (· ++ ['\n']))) : Except (ParamFault K) Params)
          = .ok t) := by
  intro lines
  have hok (t : Params) : (parse text : Except (ParamFault K) Params) = .ok t ↔
      (∀ line ∈ lines, Accepted line) ∧ t = ⟨assign [] (assignments lines)⟩ :=
    parseLines_eq_ok_iff
  refine ⟨by simp [hok], fun t ht => ?_, fun e => ?_, fun t hes hkeys written hwritten => ?_⟩
  · obtain ⟨-, rfl⟩ := (hok t).1 ht
    exact ⟨keys_assign _, nodup_keys_assign _, lookup_assign _⟩
  · rw [parse, parseLines_eq_error_iff]
    simp only [Nat.add_comm 1, lines]
  · obtain ⟨hfeed, hlines, hassigned⟩ := hwritten.accepted hes
    rw [parse, String.toList_ofList, Text.splitLines_flatMap hfeed, parseLines_eq_ok_iff,
      assignments_map_dropReturn, hassigned, assign_of_nodup hkeys]
    exact ⟨by simpa [accepted_dropReturn] using hlines, rfl⟩

/-- Two comments, one of them ended by a carriage return and with an `=` in it, and a blank line
between three entries, of which one has an `=` in its value and one has no value. -/
theorem parse_exact_controls :
    let t : Params := ⟨[("diffusion.mg_rtol", "1.0e-8"), ("amr.plot", "a = b"), ("amr.note", "")]⟩
    let written := ["# solver controls".toList, entryLine ("diffusion.mg_rtol", "1.0e-8"), [' '],
      entryLine ("amr.plot", "a = b"), "\t# amr.note = x\r".toList, entryLine ("amr.note", "")]
    (∀ e ∈ t.entries, Writable e) ∧ (t.entries.map Prod.fst).Nodup ∧ Written t.entries written ∧
    String.ofList (written.flatMap (· ++ ['\n'])) =
      "# solver controls\ndiffusion.mg_rtol = 1.0e-8\n \n"
        ++ "amr.plot = a = b\n\t# amr.note = x\r\namr.note = \n" ∧
    (parse (String.ofList (written.flatMap (· ++ ['\n']))) : Except (ParamFault ℚ) Params)
      = .ok t := by
  intro t written
  have hentries : ∀ e ∈ t.entries, Writable e := by
    simp only [t, List.forall_mem_cons]
    refine ⟨?_, ?_, ?_, by simp⟩
    all_goals constructor <;> decide +kernel
  have hkeys : (t.entries.map Prod.fst).Nodup := by decide
  have hwritten : Written t.entries written :=
    .skip (List.all_eq_true.1 (by decide +kernel)) (by decide +kernel) <| .entry _ <|
      .skip (List.all_eq_true.1 (by decide +kernel)) (by decide +kernel) <| .entry _ <|
      .skip (List.all_eq_true.1 (by decide +kernel)) (by decide +kernel) <| .entry _ .nil
  exact ⟨hentries, hkeys, hwritten, by decide +kernel,
    (parse_exact "").2.2.2 t hentries hkeys written hwritten⟩

/-- The last line with a key counts, and the key stays at its first place. -/
example : (parse "a = 1\n# c\nb = 2 # d\r\na = 3 = x" : Except (ParamFault ℚ) Params)
    = .ok ⟨[("a", "3 = x"), ("b", "2")]⟩ := by cbv

/-- Blank lines count for the number of a line, and its text is given with its comment. -/
example : (parse "a = 1\n\n  = 2 # d\nb" : Except (ParamFault ℚ) Params)
    = .error (.malformed 3 "= 2 # d") := by cbv

end Params

end MeshDiffusion
