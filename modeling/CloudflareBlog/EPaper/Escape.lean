import CloudflareBlog.Lib.Replace

/-!
# Escaping in the templates

`escape` of pyratemp: one replacement after the other over the whole text.  As what a replacement puts in
is not touched by the later ones, each letter of the text is replaced once (`escape_eq`).
-/

namespace CloudflareBlog.EPaper.Pyratemp

open Lib.Replace

abbrev Text := List Char

inductive Format where
  | none | html | latex | mailHeader
  deriving DecidableEq, Repr

/-- The replacements for HTML, in their order. -/
def escapeHtml (s : Text) : Text :=
  let s := replace ['&'] "&amp;".toList s
  let s := replace ['<'] "&lt;".toList s
  let s := replace ['>'] "&gt;".toList s
  let s := replace ['\x22'] "&quot;".toList s
  -- the fifth one has the same mark as the fourth
  replace ['\x22'] "&#39;".toList s

def escapeLatex (s : Text) : Text :=
  let s := replace ['\\'] "\\x".toList s
  let s := replace ['#'] "\\#".toList s
  let s := replace ['$'] "\\$".toList s
  let s := replace ['%'] "\\%".toList s
  let s := replace ['&'] "\\&".toList s
  let s := replace ['_'] "\\_".toList s
  let s := replace ['\x7b'] "\\\x7b".toList s
  let s := replace ['\x7d'] "\\\x7d".toList s
  let s := replace "\\x".toList "\\textbackslash\x7b\x7d".toList s
  let s := replace ['~'] "\\textasciitilde\x7b\x7d".toList s
  replace ['^'] "\\textasciicircum\x7b\x7d".toList s

/-- `escape`, where the header of a mail is made by `email.header`. -/
def escape (header : Text → Text) (s : Text) : Format → Text
  | .none => s
  | .html => escapeHtml s
  | .latex => escapeLatex s
  | .mailHeader => if s.all (·.toNat < 128) then s else header s

/-! ## One letter at a time -/

def htmlTable : List (Char × Text) := [
  ('&', "&amp;".toList), ('<', "&lt;".toList), ('>', "&gt;".toList), ('\x22', "&quot;".toList)]

def latexTable : List (Char × Text) := [
  ('\\', "\\textbackslash\x7b\x7d".toList), ('#', "\\#".toList), ('$', "\\$".toList),
  ('%', "\\%".toList), ('&', "\\&".toList), ('_', "\\_".toList), ('\x7b', "\\\x7b".toList),
  ('\x7d', "\\\x7d".toList), ('~', "\\textasciitilde\x7b\x7d".toList),
  ('^', "\\textasciicircum\x7b\x7d".toList)]

theorem readable_htmlTable : Readable htmlTable := by decide

theorem readable_latexTable : Readable latexTable := by decide

theorem escapeHtml_eq (s : Text) : escapeHtml s = s.flatMap (translate htmlTable) := by
  simp only [escapeHtml, replace_singleton, List.flatMap_assoc]
  refine List.flatMap_congr fun c _ => ?_
  by_cases special : c ∈ htmlTable.map Prod.fst
  · simp only [htmlTable, List.map_cons, List.map_nil, List.mem_cons, List.not_mem_nil,
      or_false] at special
    obtain rfl | rfl | rfl | rfl := special <;> decide
  · rw [translate_of_not_mem special]
    simp only [htmlTable, List.map_cons, List.map_nil, List.mem_cons, List.not_mem_nil, or_false,
      not_or] at special
    simp [special]

/-- The letters but the backslash that get a backslash in front. -/
def marked : Text := ['#', '$', '%', '&', '_', '\x7b', '\x7d']

/-- What the replacements for LaTeX leave of a letter before the backslashes are spelt out. -/
def backslashed (c : Char) : Text :=
  if c = '\\' then "\\x".toList else if c ∈ marked then ['\\', c] else [c]

def spelt (c : Char) : Text :=
  if c = '\\' then "\\textbackslash\x7b\x7d".toList
  else if c ∈ marked then ['\\', c] else [c]

theorem replace_backslashed (s : Text) :
    replace "\\x".toList "\\textbackslash\x7b\x7d".toList (s.flatMap backslashed) =
      s.flatMap spelt := by
  induction s with
  | nil => rfl
  | cons c s inductionHypothesis =>
    rw [List.flatMap_cons, List.flatMap_cons, ← inductionHypothesis, backslashed, spelt]
    split
    · exact replace_append_of_prefix '\\' ['x'] _ _
    · rename_i notBackslash
      split
      · rename_i isMarked
        have notX : c ≠ 'x' := by
          rintro rfl
          revert isMarked
          decide
        have first : ¬['\\', 'x'] <+: '\\' :: c :: s.flatMap backslashed := fun found =>
          notX (List.cons_prefix_cons.mp (List.cons_prefix_cons.mp found).2).1.symm
        have second : ¬['\\', 'x'] <+: c :: s.flatMap backslashed := fun found =>
          notBackslash (List.cons_prefix_cons.mp found).1.symm
        exact (replace_cons_of_ne _ first).trans
          (congrArg _ (replace_cons_of_ne _ second))
      · have other : ¬['\\', 'x'] <+: c :: s.flatMap backslashed := fun found =>
          notBackslash (List.cons_prefix_cons.mp found).1.symm
        exact replace_cons_of_ne _ other

theorem escapeLatex_eq (s : Text) : escapeLatex s = s.flatMap (translate latexTable) := by
  have firstEight : replace ['\x7d'] "\\\x7d".toList (replace ['\x7b'] "\\\x7b".toList
      (replace ['_'] "\\_".toList (replace ['&'] "\\&".toList (replace ['%'] "\\%".toList
      (replace ['$'] "\\$".toList (replace ['#'] "\\#".toList
      (replace ['\\'] "\\x".toList s))))))) = s.flatMap backslashed := by
    simp only [replace_singleton, List.flatMap_assoc]
    refine List.flatMap_congr fun c _ => ?_
    by_cases special : c ∈ '\\' :: marked
    · simp only [marked, List.mem_cons, List.not_mem_nil, or_false] at special
      obtain rfl | rfl | rfl | rfl | rfl | rfl | rfl | rfl := special <;> decide
    · simp only [marked, List.mem_cons, List.not_mem_nil, or_false, not_or] at special
      simp [backslashed, marked, special]
  have subset : marked ⊆ latexTable.map Prod.fst := by decide
  have lastTwo (c : Char) : ((spelt c).flatMap fun a =>
      if a = '~' then "\\textasciitilde\x7b\x7d".toList else [a]).flatMap (fun a =>
      if a = '^' then "\\textasciicircum\x7b\x7d".toList else [a]) = translate latexTable c := by
    by_cases special : c ∈ latexTable.map Prod.fst
    · simp only [latexTable, List.map_cons, List.map_nil, List.mem_cons, List.not_mem_nil,
        or_false] at special
      obtain rfl | rfl | rfl | rfl | rfl | rfl | rfl | rfl | rfl | rfl := special <;> decide
    · rw [translate_of_not_mem special]
      have plain : spelt c = [c] := by
        rw [spelt, if_neg fun same => special (by rw [same]; decide), if_neg fun isMarked =>
          special (subset isMarked)]
      rw [plain, List.flatMap_singleton, if_neg fun same => special (by rw [same]; decide),
        List.flatMap_singleton, if_neg fun same => special (by rw [same]; decide)]
  rw [escapeLatex, firstEight, replace_backslashed]
  simp only [replace_singleton, List.flatMap_assoc] at lastTwo ⊢
  exact List.flatMap_congr fun c _ => lastTwo c

theorem not_mem_escapeHtml {c : Char} (special : c ∈ ['<', '>', '\x22']) (s : Text) :
    c ∉ escapeHtml s := by
  rw [escapeHtml_eq, List.mem_flatMap]
  rintro ⟨a, -, among⟩
  by_cases inTable : a ∈ htmlTable.map Prod.fst
  · have clean : (htmlTable.map Prod.fst).all (fun a =>
        ['<', '>', '\x22'].all (· ∉ translate htmlTable a)) = true := by decide
    have cleanAt := List.all_eq_true.mp (List.all_eq_true.mp clean a inTable) c special
    exact of_decide_eq_true cleanAt among
  · rw [translate_of_not_mem inTable, List.mem_singleton] at among
    subst among
    have keys : ['<', '>', '\x22'] ⊆ htmlTable.map Prod.fst := by decide
    exact inTable (keys special)

/-- The apostrophes stay as they are. -/
theorem count_escapeHtml (s : Text) : (escapeHtml s).count '\x27' = s.count '\x27' := by
  rw [escapeHtml_eq]
  induction s with
  | nil => rfl
  | cons a s inductionHypothesis =>
    rw [List.flatMap_cons, List.count_append, inductionHypothesis, List.count_cons, Nat.add_comm]
    by_cases inTable : a ∈ htmlTable.map Prod.fst
    · have none : (htmlTable.map Prod.fst).all (fun a =>
          (translate htmlTable a).count '\x27' = 0 ∧ a ≠ '\x27') = true := by decide
      obtain ⟨absent, other⟩ := of_decide_eq_true (List.all_eq_true.mp none a inTable)
      rw [absent, beq_eq_false_iff_ne.mpr other]
      rfl
    · rw [translate_of_not_mem inTable, List.count_singleton]

/-- Each letter is replaced once, whatever the order of the replacements, and the text can be read back;
the text for HTML has no angle brackets and quotation marks any more, but it keeps its apostrophes. -/
theorem escape_eq (header : Text → Text) :
    (∀ s, escape header s .html = s.flatMap (translate htmlTable)) ∧
      (∀ s, escape header s .latex = s.flatMap (translate latexTable)) ∧
      (Function.Injective fun s => escape header s .html) ∧
      (Function.Injective fun s => escape header s .latex) ∧
      (∀ s, ∀ c ∈ ['<', '>', '\x22'], c ∉ escape header s .html) ∧
      ∀ s, (escape header s .html).count '\x27' = s.count '\x27' := by
  refine ⟨escapeHtml_eq, escapeLatex_eq, fun s t same => ?_, fun s t same => ?_,
    fun s c special => not_mem_escapeHtml special s, count_escapeHtml⟩
  · refine translate_injective readable_htmlTable ?_
    simpa only [escape, escapeHtml_eq] using same
  · refine translate_injective readable_latexTable ?_
    simpa only [escape, escapeLatex_eq] using same

end CloudflareBlog.EPaper.Pyratemp
