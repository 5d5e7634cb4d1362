import CloudflareBlog.EPaper.Escape
import CloudflareBlog.Lib.Returning
import CloudflareBlog.Lib.Text
import Mathlib.Logic.Function.Iterate

/-!
# The parser of the templates

`Parser` of pyratemp.  What its regular expressions find in a text is given; the parser checks how the
tags follow each other and makes the parse tree.  In a parse tree each `elif` and each `else` belongs to
a block (`parseTemplate_wellFormed`).
-/

namespace CloudflareBlog.EPaper.Pyratemp

open Lib.Raising

/-! ## Positions -/

/-- `string.count("\n", 0, max(0, i)) + 1`. -/
def srow (string : Text) (i : Nat) : Nat := (string.take i).count '\n' + 1

/-- `string.rfind("\n", 0, i)`. -/
def rfind (string : Text) (i : Nat) : Int :=
  match (string.take i).reverse.idxOf? '\n' with
  | some fromEnd => (string.take i).length - 1 - fromEnd
  | none => -1

def scol (string : Text) (i : Nat) : Int := i - rfind string i

/-- `string.find("\n", n) + 1`. -/
def nextLine (string : Text) (n : Nat) : Nat :=
  match (string.drop n).idxOf? '\n' with
  | some ahead => n + ahead + 1
  | none => 0

def sindex (string : Text) (row : Nat) (col : Int) : Int := (nextLine string)^[row - 1] 0 + col - 1

theorem rfind_succ {string : Text} {i : Nat} (inside : i < string.length) :
    rfind string (i + 1) = if string[i] = '\n' then (i : Int) else rfind string i := by
  rw [rfind, rfind, List.take_succ_eq_append_getElem inside, List.reverse_append, List.reverse_singleton,
    List.singleton_append, List.idxOf?_cons, List.length_append, List.length_take_of_le inside.le]
  by_cases newline : string[i] = '\n'
  · simp [newline]
  · simp only [beq_eq_false_iff_ne.mpr newline, if_neg newline, Bool.false_eq_true, if_false]
    cases (string.take i).reverse.idxOf? '\n' with
    | none => rfl
    | some fromEnd =>
      simp
      omega

/-- The line of a position begins at `start`. -/
structure LineStart (string : Text) (i start : Nat) : Prop where
  before : start ≤ i
  inside : '\n' ∉ (string.take i).drop start
  found : rfind string i = start - 1

theorem idxOf?_append_cons {α : Type} [DecidableEq α] {a : α} {before : List α} (absent : a ∉ before)
    (after : List α) : (before ++ a :: after).idxOf? a = some before.length := by
  induction before with
  | nil => simp [List.idxOf?_cons]
  | cons b before ih =>
    obtain ⟨other, rest⟩ := not_or.mp (List.mem_cons.not.mp absent)
    simp [List.idxOf?_cons, Ne.symm other, ih rest]

theorem nextLine_of_lineStart {string : Text} {i start : Nat} (bound : i < string.length)
    (begins : LineStart string i start) (newline : string[i] = '\n') :
    nextLine string start = i + 1 := by
  have within : (string.take i).length = i := List.length_take_of_le bound.le
  have cut : string.drop start = (string.take i).drop start ++ '\n' :: string.drop (i + 1) := by
    rw [← newline, List.getElem_cons_drop, ← List.drop_append_of_le_length (within.symm ▸ begins.before),
      List.take_append_drop]
  rw [nextLine, cut, idxOf?_append_cons begins.inside, List.length_drop, within]
  have := begins.before
  simp only
  omega

theorem lineStart_iterate (string : Text) {i : Nat} (inside : i ≤ string.length) :
    LineStart string i ((nextLine string)^[(string.take i).count '\n'] 0) := by
  induction i with
  | zero => exact ⟨Nat.le_refl _, by simp, rfl⟩
  | succ i ih =>
    have begins := ih (Nat.le_of_succ_le inside)
    have taken := List.take_succ_eq_append_getElem inside
    by_cases newline : string[i] = '\n'
    · have count : (string.take (i + 1)).count '\n' = (string.take i).count '\n' + 1 := by
        rw [taken, List.count_append, newline, List.count_singleton_self]
      rw [count, Function.iterate_succ_apply', nextLine_of_lineStart inside begins newline]
      exact ⟨Nat.le_refl _, by simp, by rw [rfind_succ inside, if_pos newline]; simp⟩
    · have count : (string.take (i + 1)).count '\n' = (string.take i).count '\n' := by
        rw [taken, List.count_append, List.count_singleton, if_neg (by simpa using newline),
          Nat.add_zero]
      rw [count]
      have within : (string.take i).length = i := List.length_take_of_le (Nat.le_of_succ_le inside)
      refine ⟨Nat.le_succ_of_le begins.before, ?_,
        by rw [rfind_succ inside, if_neg newline, begins.found]⟩
      rw [taken, List.drop_append_of_le_length (within.symm ▸ begins.before)]
      simpa using ⟨begins.inside, fun same => newline same.symm⟩

theorem sindex_srow_scol (string : Text) {i : Nat} (inside : i ≤ string.length) :
    sindex string (srow string i) (scol string i) = i := by
  rw [sindex, srow, Nat.add_sub_cancel, scol, (lineStart_iterate string inside).found]
  omega

theorem sindex_srow_scol_second_line :
    4 ≤ "if\nelse".toList.length ∧
      sindex "if\nelse".toList (srow "if\nelse".toList 4) (scol "if\nelse".toList 4) = (4 : Nat) :=
  ⟨by decide, sindex_srow_scol "if\nelse".toList (by decide)⟩

/-! ## Parse trees -/

inductive Node where
  | str (text : Text)
  | sub (expr : Text)
  | esc (format : Format) (expr : Text)
  | forBlock (names : List Text) (iter : Text) (body : List Node)
  | ifBlock (cond : Text) (body : List Node)
  | elifBlock (cond : Text) (body : List Node)
  | elseBlock (body : List Node)
  | macroBlock (name : Text) (body : List Node)

/-! ## What the regular expressions find -/

/-- The alternatives of `_reBlock`, with the positions of the groups that are asked for. -/
inductive Tag where
  | single (space keyw param content : Text) (paramStart contentStart : Nat)
  | multi (indent keyw param ignored content : Text) (paramStart ignoredStart contentStart : Nat)
  | multiEnd (indent ignored : Text) (ignoredStart : Nat)
  | singleEnd

structure BlockMatch where
  start : Nat
  stop : Nat
  group : Text
  tag : Tag

/-- A match of `_reSubstitution`: of which kind it is, and whether the closing tag is there. -/
structure SubMatch where
  start : Nat
  stop : Nat
  group : Text
  escaped : Bool
  expr : Text
  closed : Bool

structure ForParam where
  names : Text
  iter : Text
  iterStart : Nat

/-- An exception that is raised by another module. -/
structure PythonError where
  isSyntaxError : Bool
  message : Text

/-- The regular expressions, `testexpr` and `load`. -/
structure Setup where
  blocks : Text → List BlockMatch
  substitutions : Text → List SubMatch
  /-- `_reComment.sub`, with blanks and with nothing. -/
  blanked : Text → Text
  uncommented : Text → Text
  forParam : Text → Option ForParam
  macroParam : Text → Bool
  testexpr : Text → Except PythonError Unit
  load : Text → Except PythonError Text

/-! ## The parser -/

structure Errpos where
  filename : Option Text
  row : Nat
  col : Int

inductive ParseException where
  | templateSyntaxError (err : Text) (errpos : Errpos)
  | templateIncludeError (err : Text) (errpos : Errpos)
  /-- An exception that is not caught. -/
  | python (error : PythonError)
  | recursionError

/-- `self`, but for the setup; of `_includestack` the last element comes first. -/
structure ParserState where
  escape : Format
  includestack : List (Option Text × Text)

abbrev ParserProgram := Program ParserState ParseException

def errpos (fpos : Nat) (state : ParserState) : Errpos :=
  match state.includestack with
  | (filename, string) :: _ => ⟨filename, srow string fpos, scol string fpos⟩
  | [] => ⟨none, 0, 0⟩

def syntaxError {α : Type} (err : String) (arguments : List Text) (fpos : Nat) : ParserProgram α := do
  let state ← get
  throw (.templateSyntaxError (err.toList ++ arguments.flatten) (errpos fpos state))

def testexpr (setup : Setup) (expr : Text) (fpos : Nat) : ParserProgram Unit := do
  match setup.testexpr expr with
  | .ok _ => pure ()
  | .error error =>
    if error.isSyntaxError then
      let state ← get
      throw (.templateSyntaxError error.message (errpos fpos state))
    else throw (.python error)

/-- `text[start:stop]`. -/
def slice (text : Text) (start stop : Nat) : Text := (text.take stop).drop start

/-- One substitution, with the text in front of it. -/
def parseSubMatch (setup : Setup) (text : Text) (fpos curr : Nat) (found : SubMatch) :
    ParserProgram (List Node) := do
  let before :=
    if found.start > curr then [.str (setup.uncommented (slice text curr found.start))] else []
  if !found.closed then
    syntaxError "Missing closing tag "
      [(if found.escaped then "!@" else "!$").toList, " for ".toList, found.group, ".".toList]
      (fpos + found.start)
  else if found.expr = [] then return before
  else
    testexpr setup found.expr (fpos + found.start)
    let state ← get
    return before ++ [if found.escaped then .esc state.escape found.expr else .sub found.expr]

def parseSubFrom (setup : Setup) (text : Text) (fpos : Nat) :
    Nat → List SubMatch → ParserProgram (List Node)
  | curr, [] =>
    return if text.length > curr then [.str (setup.uncommented (text.drop curr))] else []
  | curr, found :: rest => do
    let nodes ← parseSubMatch setup text fpos curr found
    let more ← parseSubFrom setup text fpos found.stop rest
    return nodes ++ more

/-- `_parse_sub`, with what it appends to the parse tree. -/
def parseSub (setup : Setup) (text : Text) (fpos : Nat) : ParserProgram (List Node) :=
  parseSubFrom setup text fpos 0 (setup.substitutions text)

inductive BlockType where
  | for_ | if_ | macro_ | raw | include_ | setEscape
  deriving DecidableEq, Repr

/-- The variables of the loop in `_parse`. -/
structure Locals where
  parsetree : List Node
  curr : Nat
  blockType : Option BlockType
  blockIndent : Option Nat
  pos : Nat

/-- The blanks in front of a tag on one line go to the text before it. -/
def restoreSpace (parsetree : List Node) (space : Text) : List Node :=
  if space = [] then parsetree
  else
    match parsetree.getLast? with
    | some (.str text) => parsetree.dropLast ++ [.str (text ++ space)]
    | _ => parsetree ++ [.str space]

def isIgnored (ignored : Text) : Bool :=
  Lib.Text.strip ignored = [] || Lib.Text.strip ignored = "#!".toList

/-- The end of a block. -/
def parseEnd (locals : Locals) (indent : Option (Text × Text × Nat)) (fpos pos : Nat) :
    ParserProgram Locals := do
  if locals.blockType = none then syntaxError "No block to end here/invalid indent." [] pos
  else if locals.blockIndent ≠ indent.map (·.1.length) then
    syntaxError "Invalid indent for end-tag." [] pos
  else
    match indent with
    | some (_, ignored, ignoredStart) =>
      if !isIgnored ignored then
        syntaxError "No code allowed after end-tag." [] (fpos + ignoredStart)
      else return { locals with blockType := none }
    | none => return { locals with blockType := none }

/-- A tag with a keyword, and the positions `pos__`, `pos_p` and `pos_c`. -/
structure Block where
  group : Text
  param : Text
  content : Text
  pos : Nat
  posP : Nat
  posC : Nat

section

variable (setup : Setup) (parse : Text → Nat → ParserProgram (List Node)) (locals : Locals)
  (block : Block)

def noOpenBlock (err : String) : ParserProgram Unit :=
  if locals.blockType ≠ none then syntaxError err [block.group, ".".toList] block.pos else pure ()

/-- What a tag adds to the parse tree, and which block is open behind it. -/
def Locals.add (nodes : List Node) (blockType : BlockType) : Locals :=
  { locals with parsetree := locals.parsetree ++ nodes, blockType := some blockType }

def parseFor : ParserProgram Locals := do
  noOpenBlock locals block "Missing block-end-tag before new block at "
  match setup.forParam block.param with
  | none => syntaxError "Invalid for ... at " [block.param, ".".toList] block.posP
  | some cond =>
    let names := (cond.names.splitOn ',').map Lib.Text.strip
    testexpr setup cond.iter (block.posP + cond.iterStart)
    let body ← parse block.content block.posC
    return locals.add [.forBlock names cond.iter body] .for_

def parseIf : ParserProgram Locals := do
  noOpenBlock locals block "Missing block-end-tag before new block at "
  if block.param = [] then
    syntaxError "Missing condition for if at " [block.group, ".".toList] block.pos
  else
    testexpr setup block.param block.posP
    let body ← parse block.content block.posC
    return locals.add [.ifBlock block.param body] .if_

def parseElif : ParserProgram Locals := do
  if locals.blockType ≠ some .if_ then
    syntaxError "elif may only appear after if at " [block.group, ".".toList] block.pos
  else if block.param = [] then
    syntaxError "Missing condition for elif at " [block.group, ".".toList] block.pos
  else
    testexpr setup block.param block.posP
    let body ← parse block.content block.posC
    return { locals with parsetree := locals.parsetree ++ [.elifBlock block.param body] }

def parseElse : ParserProgram Locals := do
  if locals.blockType ≠ some .if_ ∧ locals.blockType ≠ some .for_ then
    syntaxError "else may only appear after if or for at " [block.group, ".".toList] block.pos
  else if block.param ≠ [] then
    syntaxError "else may not have parameters at " [block.group, ".".toList] block.pos
  else
    let body ← parse block.content block.posC
    return { locals with parsetree := locals.parsetree ++ [.elseBlock body] }

/-- The last line break is removed from the content of a macro. -/
def withoutBreak (content : Text) : Text :=
  let content := if content.getLast? = some '\n' then content.dropLast else content
  if content.getLast? = some '\r' then content.dropLast else content

def parseMacro : ParserProgram Locals := do
  noOpenBlock locals block "Missing block-end-tag before new block "
  if block.param = [] then
    syntaxError "Missing name for macro at " [block.group, ".".toList] block.pos
  else if !setup.macroParam block.param then
    syntaxError "Invalid name for macro at " [block.group, ".".toList] block.pos
  else
    let body ← parse (withoutBreak block.content) block.posC
    return locals.add [.macroBlock block.param body] .macro_

def noParam (keyword : String) : ParserProgram Unit :=
  if block.param ≠ [] then
    syntaxError (keyword ++ " may not have parameters at ") [block.group, ".".toList] block.pos
  else pure ()

def parseRaw : ParserProgram Locals := do
  noOpenBlock locals block "Missing block-end-tag before new block "
  noParam block "raw"
  return locals.add [.str block.content] .raw

def parseInclude : ParserProgram Locals := do
  noOpenBlock locals block "Missing block-end-tag before new block "
  noParam block "include"
  let name := Lib.Text.strip block.content
  match setup.load name with
  | .error error =>
    let state ← get
    throw (.templateIncludeError error.message (errpos block.pos state))
  | .ok u =>
    modify fun state => { state with includestack := (some name, u) :: state.includestack }
    let nodes ← parse u 0
    modify fun state => { state with includestack := state.includestack.tail }
    return locals.add nodes .include_

/-- `ESCAPE_SUPPORTED`. -/
def escapeSupported (name : Text) : Option Format :=
  if name = "NONE".toList then some .none
  else if name = "HTML".toList then some .html
  else if name = "LATEX".toList then some .latex
  else if name = "MAIL_HEADER".toList then some .mailHeader
  else none

def parseSetEscape : ParserProgram Locals := do
  noOpenBlock locals block "Missing block-end-tag before new block "
  noParam block "set_escape"
  let esc := (Lib.Text.strip block.content).map Char.toUpper
  match escapeSupported esc with
  | none => syntaxError "Unsupported escape " [esc, ".".toList] block.pos
  | some format =>
    modify fun state => { state with escape := format }
    return locals.add [] .setEscape

def parseKeyword (keyword : Text) : ParserProgram Locals :=
  let keyword := keyword.map Char.toLower
  if keyword = [] then pure locals
  else if keyword = "for".toList then parseFor setup parse locals block
  else if keyword = "if".toList then parseIf setup parse locals block
  else if keyword = "elif".toList then parseElif setup parse locals block
  else if keyword = "else".toList then parseElse parse locals block
  else if keyword = "macro".toList then parseMacro setup parse locals block
  else if keyword = "raw".toList then parseRaw locals block
  else if keyword = "include".toList then parseInclude setup parse locals block
  else if keyword = "set_escape".toList then parseSetEscape locals block
  else syntaxError "Invalid keyword " [keyword, ".".toList] block.pos

/-- A tag behind the text in front of it. -/
def parseTag (fpos : Nat) (found : BlockMatch) : ParserProgram Locals :=
  let pos := fpos + found.start
  match found.tag with
  | .single space keyw param content paramStart contentStart =>
    let restored :=
      { locals with parsetree := restoreSpace locals.parsetree space, blockIndent := none }
    parseKeyword setup parse restored
      ⟨found.group, param, content, pos, fpos + paramStart, fpos + contentStart⟩ keyw
  | .multi indent keyw param ignored content paramStart ignoredStart contentStart =>
    if !isIgnored ignored then
      syntaxError "No code allowed after block-tag." [] (fpos + ignoredStart)
    else
      parseKeyword setup parse { locals with blockIndent := some indent.length }
        ⟨found.group, param, content, pos, fpos + paramStart, fpos + contentStart⟩ keyw
  | .multiEnd indent ignored ignoredStart =>
    parseEnd locals (some (indent, ignored, ignoredStart)) fpos pos
  | .singleEnd => parseEnd locals none fpos pos

/-- `_parse_sub` for the part of a template between the blocks, unless it is empty. -/
def parseBetween (some : Bool) (text : Text) (fpos : Nat) : ParserProgram (List Node) :=
  if some then parseSub setup text fpos else pure []

def parseBlock (template : Text) (fpos : Nat) (found : BlockMatch) : ParserProgram Locals := do
  -- the position does not count the part of the template before `curr`
  let before ←
    parseBetween setup (found.start > locals.curr) (slice template locals.curr found.start) fpos
  let behind ← parseTag setup parse { locals with parsetree := locals.parsetree ++ before } fpos found
  return { behind with curr := found.stop, pos := fpos + found.start }

def parseBlocks (template : Text) (fpos : Nat) : List BlockMatch → Locals → ParserProgram Locals
  | [], locals => pure locals
  | found :: rest, locals => do
    let behind ← parseBlock setup parse locals template fpos found
    parseBlocks template fpos rest behind

end

/-- `_parse`; the interpreter limits the depth of the recursion. -/
def parseFrom (setup : Setup) : Nat → Text → Nat → ParserProgram (List Node)
  | 0, _, _ => throw .recursionError
  | depth + 1, template, fpos => do
    let template := setup.blanked template
    let locals ← parseBlocks setup (parseFrom setup depth) template fpos (setup.blocks template)
      ⟨[], 0, none, none, 0⟩
    if locals.blockType ≠ none then syntaxError "Missing end-tag." [] locals.pos
    else
      let last ← parseBetween setup (template.length > locals.curr) (template.drop locals.curr)
        (fpos + locals.curr)
      return locals.parsetree ++ last

/-- `parse`. -/
def parseTemplate (setup : Setup) (depth : Nat) (template : Text) : ParserProgram (List Node) := do
  modify fun state => { state with includestack := [(none, template)] }
  parseFrom setup depth template 0

/-! ## Blocks that are still open -/

mutual

/-- A node may stand behind an open `if` or `for` block, or where there is none, and such a block is open
behind the node or not. -/
inductive Follows : Bool → Node → Bool → Prop
  | str (opened : Bool) (text : Text) : Follows opened (.str text) opened
  | sub (opened : Bool) (expr : Text) : Follows opened (.sub expr) opened
  | esc (opened : Bool) (format : Format) (expr : Text) : Follows opened (.esc format expr) opened
  | forBlock (opened : Bool) (names : List Text) (iter : Text) {body : List Node} {inner : Bool}
      (inside : Chained false body inner) : Follows opened (.forBlock names iter body) true
  | ifBlock (opened : Bool) (cond : Text) {body : List Node} {inner : Bool}
      (inside : Chained false body inner) : Follows opened (.ifBlock cond body) true
  | elifBlock (cond : Text) {body : List Node} {inner : Bool} (inside : Chained false body inner) :
      Follows true (.elifBlock cond body) true
  | elseBlock {body : List Node} {inner : Bool} (inside : Chained false body inner) :
      Follows true (.elseBlock body) true
  | macroBlock (opened : Bool) (name : Text) {body : List Node} {inner : Bool}
      (inside : Chained false body inner) : Follows opened (.macroBlock name body) false

inductive Chained : Bool → List Node → Bool → Prop
  | nil (opened : Bool) : Chained opened [] opened
  | cons {opened middle left : Bool} {node : Node} {rest : List Node}
      (here : Follows opened node middle) (later : Chained middle rest left) :
      Chained opened (node :: rest) left

end

variable {opened middle left : Bool} {first second : List Node}

theorem Chained.append (before : Chained opened first middle) (after : Chained middle second left) :
    Chained opened (first ++ second) left := by
  induction first generalizing opened with
  | nil =>
    cases before
    exact after
  | cons node first inductionHypothesis =>
    cases before with
    | cons here later => exact .cons here (inductionHypothesis later)

theorem Chained.of_append (whole : Chained opened (first ++ second) left) :
    ∃ middle, Chained opened first middle ∧ Chained middle second left := by
  induction first generalizing opened with
  | nil => exact ⟨opened, .nil opened, whole⟩
  | cons node first inductionHypothesis =>
    cases whole with
    | cons here later =>
      obtain ⟨middle, before, after⟩ := inductionHypothesis later
      exact ⟨middle, .cons here before, after⟩

theorem Chained.snoc {node : Node} (before : Chained opened first middle)
    (here : Follows middle node left) : Chained opened (first ++ [node]) left :=
  before.append (.cons here (.nil left))

theorem chained_restoreSpace (space : Text) (chained : Chained opened first left) :
    Chained opened (restoreSpace first space) left := by
  rw [restoreSpace]
  split
  · exact chained
  · split
    · rename_i text isLast
      obtain ⟨before, rfl⟩ : ∃ before, first = before ++ [.str text] :=
        List.getLast?_eq_some_iff.mp isLast
      rw [List.dropLast_concat]
      obtain ⟨middle, start, last⟩ := chained.of_append
      cases last with
      | cons here later =>
        cases here
        cases later
        exact start.snoc (.str _ _)
    · exact chained.snoc (.str _ _)

/-- Nodes without blocks. -/
def Plain (nodes : List Node) : Prop := ∀ opened, Chained opened nodes opened

theorem Plain.append (plain : Plain first) (plainToo : Plain second) : Plain (first ++ second) :=
  fun opened => (plain opened).append (plainToo opened)

theorem plain_nil : Plain [] := fun opened => .nil opened

theorem plain_str (text : Text) : Plain [.str text] := fun opened => .cons (.str _ _) (.nil opened)

/-! ## The parser -/

variable {setup : Setup} {parse : Text → Nat → ParserProgram (List Node)} {locals : Locals}
  {block : Block}

theorem returns_syntaxError {α : Type} (result : α → Prop) (err : String) (arguments : List Text)
    (fpos : Nat) : Returns result (syntaxError err arguments fpos : ParserProgram α) :=
  .after fun _ => .throw _

theorem plain_parseSubMatch (setup : Setup) (text : Text) (fpos curr : Nat) (found : SubMatch) :
    Returns Plain (parseSubMatch setup text fpos curr found) := by
  have before : Plain (if found.start > curr then
      [.str (setup.uncommented (slice text curr found.start))] else []) := by
    split
    · exact plain_str _
    · exact plain_nil
  rw [parseSubMatch]
  split
  · exact returns_syntaxError ..
  · split
    · exact .pure before
    · refine .after fun _ => .after fun state => .pure (before.append fun opened => ?_)
      split
      · exact .cons (.esc _ _ _) (.nil opened)
      · exact .cons (.sub _ _) (.nil opened)

theorem plain_parseSub (setup : Setup) (text : Text) (fpos : Nat) :
    Returns Plain (parseSub setup text fpos) := by
  rw [parseSub]
  generalize 0 = curr
  induction setup.substitutions text generalizing curr with
  | nil =>
    refine .pure ?_
    split
    · exact plain_str _
    · exact plain_nil
  | cons found rest inductionHypothesis =>
    exact (plain_parseSubMatch setup text fpos curr found).bind fun _ plain =>
      (inductionHypothesis found.stop).bind fun _ plainToo => .pure (plain.append plainToo)

theorem plain_parseBetween (setup : Setup) (some : Bool) (text : Text) (fpos : Nat) :
    Returns Plain (parseBetween setup some text fpos) := by
  cases some with
  | false => exact .pure plain_nil
  | true => exact plain_parseSub setup text fpos

/-- The invariant of the loop. -/
def Sound (locals : Locals) : Prop :=
  ∃ left, Chained false locals.parsetree left ∧
    (locals.blockType = some .if_ ∨ locals.blockType = some .for_ → left = true)

def WellFormed (nodes : List Node) : Prop := ∃ left, Chained false nodes left

theorem Sound.add (sound : Sound locals) {nodes : List Node} {blockType : BlockType}
    (more : ∀ opened, ∃ left, Chained opened nodes left ∧
      (blockType = .if_ ∨ blockType = .for_ → left = true)) : Sound (locals.add nodes blockType) := by
  obtain ⟨middle, before, -⟩ := sound
  obtain ⟨left, after, opens⟩ := more middle
  exact ⟨left, before.append after,
    fun some => opens (some.imp (Option.some.inj ·) (Option.some.inj ·))⟩

/-- The content of each block is parsed to a tree that is well formed. -/
def ParsesWell (parse : Text → Nat → ParserProgram (List Node)) : Prop :=
  ∀ content fpos, Returns WellFormed (parse content fpos)

theorem sound_parseFor (sound : Sound locals) (parses : ParsesWell parse) :
    Returns Sound (parseFor setup parse locals block) := by
  refine .after fun _ => ?_
  split
  · exact returns_syntaxError ..
  · refine .after fun _ => (parses _ _).bind fun body wellFormed => .pure (sound.add fun opened => ?_)
    obtain ⟨inner, inside⟩ := wellFormed
    exact ⟨true, .cons (.forBlock opened _ _ inside) (.nil true), fun _ => rfl⟩

theorem sound_parseIf (sound : Sound locals) (parses : ParsesWell parse) :
    Returns Sound (parseIf setup parse locals block) := by
  refine .after fun _ => ?_
  split
  · exact returns_syntaxError ..
  · refine .after fun _ => (parses _ _).bind fun body wellFormed => .pure (sound.add fun opened => ?_)
    obtain ⟨inner, inside⟩ := wellFormed
    exact ⟨true, .cons (.ifBlock opened _ inside) (.nil true), fun _ => rfl⟩

theorem sound_parseElif (sound : Sound locals) (parses : ParsesWell parse) :
    Returns Sound (parseElif setup parse locals block) := by
  rw [parseElif]
  split
  · exact returns_syntaxError ..
  · rename_i isIf
    split
    · exact returns_syntaxError ..
    · refine .after fun _ => (parses _ _).bind fun body wellFormed => .pure ?_
      obtain ⟨left, before, opens⟩ := sound
      obtain ⟨inner, inside⟩ := wellFormed
      obtain rfl : left = true := opens (.inl (not_not.mp isIf))
      exact ⟨true, before.snoc (.elifBlock _ inside), fun _ => rfl⟩

theorem sound_parseElse (sound : Sound locals) (parses : ParsesWell parse) :
    Returns Sound (parseElse parse locals block) := by
  rw [parseElse]
  split
  · exact returns_syntaxError ..
  · rename_i isOpen
    split
    · exact returns_syntaxError ..
    · refine (parses _ _).bind fun body wellFormed => .pure ?_
      obtain ⟨left, before, opens⟩ := sound
      obtain ⟨inner, inside⟩ := wellFormed
      obtain rfl : left = true := opens (by tauto)
      exact ⟨true, before.snoc (.elseBlock inside), fun _ => rfl⟩

theorem sound_parseMacro (sound : Sound locals) (parses : ParsesWell parse) :
    Returns Sound (parseMacro setup parse locals block) := by
  refine .after fun _ => ?_
  split
  · exact returns_syntaxError ..
  · split
    · exact returns_syntaxError ..
    · refine (parses _ _).bind fun body wellFormed => .pure (sound.add fun opened => ?_)
      obtain ⟨inner, inside⟩ := wellFormed
      exact ⟨false, .cons (.macroBlock opened _ inside) (.nil false), by simp⟩

theorem sound_parseRaw (sound : Sound locals) : Returns Sound (parseRaw locals block) :=
  .after fun _ => .after fun _ => .pure (sound.add fun opened =>
    ⟨opened, plain_str _ opened, by simp⟩)

theorem sound_parseSetEscape (sound : Sound locals) : Returns Sound (parseSetEscape locals block) := by
  refine .after fun _ => .after fun _ => ?_
  dsimp only
  split
  · exact returns_syntaxError ..
  · exact .after fun _ => .pure (sound.add fun opened => ⟨opened, plain_nil opened, by simp⟩)

theorem Chained.behind_open {nodes : List Node} (chained : Chained false nodes left) :
    ∃ left, Chained true nodes left := by
  induction nodes with
  | nil => exact ⟨true, .nil true⟩
  | cons node rest inductionHypothesis =>
    cases chained with
    | cons here later =>
      cases here with
      | str _ text =>
        obtain ⟨last, behind⟩ := inductionHypothesis later
        exact ⟨last, .cons (.str true text) behind⟩
      | sub _ expr =>
        obtain ⟨last, behind⟩ := inductionHypothesis later
        exact ⟨last, .cons (.sub true expr) behind⟩
      | esc _ format expr =>
        obtain ⟨last, behind⟩ := inductionHypothesis later
        exact ⟨last, .cons (.esc true format expr) behind⟩
      | forBlock _ names iter inside => exact ⟨left, .cons (.forBlock true names iter inside) later⟩
      | ifBlock _ cond inside => exact ⟨left, .cons (.ifBlock true cond inside) later⟩
      | macroBlock _ name inside => exact ⟨left, .cons (.macroBlock true name inside) later⟩

theorem WellFormed.anywhere {nodes : List Node} (wellFormed : WellFormed nodes) (opened : Bool) :
    ∃ left, Chained opened nodes left := by
  cases opened with
  | false => exact wellFormed
  | true =>
    obtain ⟨left, chained⟩ := wellFormed
    exact chained.behind_open

theorem sound_parseInclude (sound : Sound locals) (parses : ParsesWell parse) :
    Returns Sound (parseInclude setup parse locals block) := by
  refine .after fun _ => .after fun _ => ?_
  dsimp only
  split
  · exact .after fun _ => .throw _
  · refine .after fun _ => (parses _ _).bind fun nodes wellFormed => .after fun _ => .pure ?_
    exact sound.add fun opened => by
      obtain ⟨left, chained⟩ := wellFormed.anywhere opened
      exact ⟨left, chained, by simp⟩

theorem sound_parseKeyword (sound : Sound locals) (parses : ParsesWell parse) (keyword : Text) :
    Returns Sound (parseKeyword setup parse locals block keyword) := by
  rw [parseKeyword]
  split
  · exact .pure sound
  split
  · exact sound_parseFor sound parses
  split
  · exact sound_parseIf sound parses
  split
  · exact sound_parseElif sound parses
  split
  · exact sound_parseElse sound parses
  split
  · exact sound_parseMacro sound parses
  split
  · exact sound_parseRaw sound
  split
  · exact sound_parseInclude sound parses
  split
  · exact sound_parseSetEscape sound
  · exact returns_syntaxError ..

theorem sound_parseEnd (sound : Sound locals) (indent : Option (Text × Text × Nat)) (fpos pos : Nat) :
    Returns Sound (parseEnd locals indent fpos pos) := by
  obtain ⟨left, chained, -⟩ := sound
  have closed : Sound { locals with blockType := none } := ⟨left, chained, by simp⟩
  unfold parseEnd
  split
  · exact returns_syntaxError ..
  split
  · exact returns_syntaxError ..
  split
  · split
    · exact returns_syntaxError ..
    · exact .pure closed
  · exact .pure closed

theorem sound_parseTag (sound : Sound locals) (parses : ParsesWell parse) (fpos : Nat)
    (found : BlockMatch) : Returns Sound (parseTag setup parse locals fpos found) := by
  obtain ⟨left, chained, opens⟩ := sound
  rw [parseTag]
  dsimp only
  split
  · refine sound_parseKeyword ?_ parses _
    exact ⟨left, chained_restoreSpace _ chained, opens⟩
  · split
    · exact returns_syntaxError ..
    · refine sound_parseKeyword ?_ parses _
      exact ⟨left, chained, opens⟩
  · exact sound_parseEnd ⟨left, chained, opens⟩ _ _ _
  · exact sound_parseEnd ⟨left, chained, opens⟩ _ _ _

theorem sound_parseBlocks (parses : ParsesWell parse) (template : Text) (fpos : Nat)
    (founds : List BlockMatch) (sound : Sound locals) :
    Returns Sound (parseBlocks setup parse template fpos founds locals) := by
  induction founds generalizing locals with
  | nil => exact .pure sound
  | cons found rest inductionHypothesis =>
    refine .bind ?_ fun behind soundBehind => inductionHypothesis soundBehind
    refine (plain_parseBetween ..).bind fun nodes plain => ?_
    obtain ⟨left, chained, opens⟩ := sound
    refine (sound_parseTag ?_ parses fpos found).bind fun behind soundBehind => .pure soundBehind
    exact ⟨left, chained.append (plain left), opens⟩

theorem parsesWell_parseFrom (setup : Setup) (depth : Nat) : ParsesWell (parseFrom setup depth) := by
  induction depth with
  | zero => exact fun _ _ => .throw _
  | succ depth inductionHypothesis =>
    intro template fpos
    refine (sound_parseBlocks inductionHypothesis _ fpos _ ⟨false, .nil false, by simp⟩).bind ?_
    intro locals sound
    split
    · exact returns_syntaxError ..
    · refine (plain_parseBetween ..).bind fun nodes plain => .pure ?_
      obtain ⟨left, chained, -⟩ := sound
      exact ⟨left, chained.append (plain left)⟩

/-- Whatever the regular expressions find, and with any files included: in the tree of a template that is
accepted each `elif` and `else` belongs to a block. -/
theorem parseTemplate_wellFormed (setup : Setup) (depth : Nat) (template : Text) :
    Returns WellFormed (parseTemplate setup depth template) :=
  .after fun _ => parsesWell_parseFrom setup depth template 0

end CloudflareBlog.EPaper.Pyratemp
