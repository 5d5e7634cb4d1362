import CloudflareBlog.EPaper.TemplateParser

/-!
# The renderer of the templates

`Renderer` of pyratemp goes through the nodes of a parse tree with a flag, `do_else`, which says whether
the next `elif` or `else` may still be taken.  For the trees of the parser this is what the blocks mean:
of an `if` with its branches one is rendered at most, and the `else` of a loop that had nothing to go
through (`render_parsed`).
-/

namespace CloudflareBlog.EPaper.Pyratemp

open Lib.Raising

/-- An exception of Python, and whether it is one of those that `_eval` catches. -/
structure PythonException where
  className : Text
  caught : Bool
  message : Text

inductive RenderException where
  | templateRenderError (message : Text)
  | python (exception : PythonException)

abbrev Data (V : Type) := Text → Option V

abbrev RenderProgram (V α : Type) := Program (Data V) RenderException α

/-- What the renderer asks of Python and of the template. -/
structure Python (V : Type) where
  evalfunc : Text → Data V → Except PythonException V × Data V
  escapefunc : Text → Format → Text
  truth : V → Bool
  /-- What a value has to go through. -/
  iter : V → Option (List V)
  unicode : V → Text
  /-- An instance of `_dontescape` or of `TemplateBase`. -/
  isDontescape : V → Bool
  /-- `TemplateBase(parsetree, self.render, data)`. -/
  templateBase : List Node → V

variable {V : Type} (py : Python V)

/-- `_eval`. -/
def eval (expr : Text) : RenderProgram V V := do
  let (result, data) := py.evalfunc expr (← get)
  set data
  match result with
  | .ok value => return value
  | .error exception =>
    if exception.caught then
      throw (.templateRenderError ("Cannot eval expression ".toList ++ expr ++ ". (".toList ++
        exception.className ++ ": ".toList ++ exception.message ++ ")".toList))
    else throw (.python exception)

/-- The values that a loop goes through. -/
def loopIter (iterable : Text) : RenderProgram V (List V) := do
  let value ← eval py iterable
  match py.iter value with
  | some items => return items
  | none => throw (.templateRenderError ("Cannot loop over ".toList ++ iterable ++ ".".toList))

def Data.set (data : Data V) (name : Text) (value : V) : Data V :=
  Function.update data name (some value)

/-- The names of a loop for one of its values. -/
def assign (names : List Text) (i : V) : RenderProgram V Unit :=
  match names with
  | [name] => modify fun data => data.set name i
  | _ =>
    match py.iter i with
    | some items => modify fun data =>
        (names.zip items).foldl (fun data (name, value) => data.set name value) data
    | none => throw (.python ⟨"TypeError".toList, true, "zip".toList⟩)

def renderEsc (format : Format) (obj : V) : Text :=
  if py.isDontescape obj then py.unicode obj else py.escapefunc (py.unicode obj) format

mutual

/-- What a node gives, and `do_else` behind it. -/
def renderNode : Node → Bool → RenderProgram V (List Text × Bool)
  | .str text, doElse => return ([text], doElse)
  | .sub expr, doElse => do
    let obj ← eval py expr
    return ([py.unicode obj], doElse)
  | .esc format expr, doElse => do
    let obj ← eval py expr
    return ([renderEsc py format obj], doElse)
  | .forBlock names iterable body, _ => do
    let items ← loopIter py iterable
    let outputs ← items.mapM fun i => do
      assign py names i
      renderNodes body false
    return (outputs.flatten, items.isEmpty)
  | .ifBlock cond body, _ => do
    let obj ← eval py cond
    if py.truth obj then
      let output ← renderNodes body false
      return (output, false)
    else return ([], true)
  | .elifBlock cond body, doElse => do
    if doElse then
      let obj ← eval py cond
      if py.truth obj then
        let output ← renderNodes body false
        return (output, false)
      else return ([], true)
    else return ([], false)
  | .elseBlock body, doElse => do
    if doElse then
      let output ← renderNodes body false
      return (output, false)
    else return ([], false)
  | .macroBlock name body, doElse => do
    modify fun data => data.set name (py.templateBase body)
    return ([], doElse)

def renderNodes : List Node → Bool → RenderProgram V (List Text)
  | [], _ => return []
  | node :: rest, doElse => do
    let (output, doElse) ← renderNode node doElse
    let more ← renderNodes rest doElse
    return output ++ more

end

/-- `render`. -/
def render (parsetree : List Node) : RenderProgram V (List Text) := renderNodes py parsetree false

/-! ## What the blocks mean -/

inductive Piece where
  | str (text : Text)
  | sub (expr : Text)
  | esc (format : Format) (expr : Text)

mutual

inductive Stmt where
  | piece (piece : Piece)
  | macro_ (name : Text) (body : List Node)
  | forBlock (names : List Text) (iter : Text) (body : List Stmt) (branches : List Branch)
  | ifBlock (cond : Text) (body : List Stmt) (branches : List Branch)

/-- What stands behind an `if` or a `for` block. -/
inductive Branch where
  | piece (piece : Piece)
  | elif (cond : Text) (body : List Stmt)
  | els (body : List Stmt)

end

def Piece.node : Piece → Node
  | .str text => .str text
  | .sub expr => .sub expr
  | .esc format expr => .esc format expr

mutual

def Stmt.nodes : Stmt → List Node
  | .piece piece => [piece.node]
  | .macro_ name body => [.macroBlock name body]
  | .forBlock names iter body branches =>
    .forBlock names iter (nodesOf body) :: branchNodes branches
  | .ifBlock cond body branches => .ifBlock cond (nodesOf body) :: branchNodes branches

def nodesOf : List Stmt → List Node
  | [] => []
  | stmt :: rest => stmt.nodes ++ nodesOf rest

def Branch.node : Branch → Node
  | .piece piece => piece.node
  | .elif cond body => .elifBlock cond (nodesOf body)
  | .els body => .elseBlock (nodesOf body)

def branchNodes : List Branch → List Node
  | [] => []
  | branch :: rest => branch.node :: branchNodes rest

end

def Piece.exec : Piece → RenderProgram V Text
  | .str text => return text
  | .sub expr => do
    let obj ← eval py expr
    return py.unicode obj
  | .esc format expr => do
    let obj ← eval py expr
    return renderEsc py format obj

/-- The branches that are not taken leave the pieces between them. -/
def skip : List Branch → RenderProgram V (List Text)
  | [] => return []
  | .piece piece :: rest => do
    let text ← piece.exec py
    let more ← skip rest
    return text :: more
  | .elif _ _ :: rest | .els _ :: rest => skip rest

mutual

def Stmt.exec : Stmt → RenderProgram V (List Text)
  | .piece piece => do
    let text ← piece.exec py
    return [text]
  | .macro_ name body => do
    modify fun data => data.set name (py.templateBase body)
    return []
  | .forBlock names iterable body branches => do
    let items ← loopIter py iterable
    let outputs ← items.mapM fun i => do
      assign py names i
      execAll body
    let more ← if items.isEmpty then choose branches else skip py branches
    return outputs.flatten ++ more
  | .ifBlock cond body branches => do
    let obj ← eval py cond
    if py.truth obj then
      let output ← execAll body
      let more ← skip py branches
      return output ++ more
    else choose branches

def execAll : List Stmt → RenderProgram V (List Text)
  | [] => return []
  | stmt :: rest => do
    let output ← stmt.exec
    let more ← execAll rest
    return output ++ more

/-- The first branch whose condition holds. -/
def choose : List Branch → RenderProgram V (List Text)
  | [] => return []
  | .piece piece :: rest => do
    let text ← piece.exec py
    let more ← choose rest
    return text :: more
  | .elif cond body :: rest => do
    let obj ← eval py cond
    if py.truth obj then
      let output ← execAll body
      let more ← skip py rest
      return output ++ more
    else choose rest
  | .els body :: rest => do
    let output ← execAll body
    let more ← skip py rest
    return output ++ more

end

/-! ## The flag and the meaning -/

/-- The output of both, one after the other. -/
def both (first second : RenderProgram V (List Text)) : RenderProgram V (List Text) := do
  let output ← first
  let more ← second
  return output ++ more

theorem renderNodes_cons (node : Node) (rest : List Node) (doElse : Bool) :
    renderNodes py (node :: rest) doElse =
      renderNode py node doElse >>= fun behind =>
        renderNodes py rest behind.2 >>= fun more => pure (behind.1 ++ more) := by
  rw [renderNodes]

theorem renderNodes_piece (piece : Piece) (rest : List Node) (doElse : Bool) :
    renderNodes py (piece.node :: rest) doElse =
      both (piece.exec py >>= fun text => pure [text]) (renderNodes py rest doElse) := by
  cases piece <;>
    simp only [Piece.node, Piece.exec, renderNodes_cons, renderNode, both, bind_assoc, pure_bind]

mutual

theorem renderNodes_nodesOf : ∀ (stmts : List Stmt) (doElse : Bool),
    renderNodes py (nodesOf stmts) doElse = execAll py stmts
  | [], doElse => by rw [nodesOf, renderNodes, execAll]
  | stmt :: rest, doElse => by
    rw [nodesOf, execAll]
    exact renderNodes_stmt stmt (renderNodes_nodesOf rest) doElse

theorem renderNodes_stmt : ∀ (stmt : Stmt) {rest : List Node} {tail : RenderProgram V (List Text)}
    (_ : ∀ doElse, renderNodes py rest doElse = tail) (doElse : Bool),
    renderNodes py (stmt.nodes ++ rest) doElse = both (stmt.exec py) tail
  | .piece piece, rest, tail, same, doElse => by
    rw [Stmt.nodes, Stmt.exec, List.singleton_append, renderNodes_piece, same]
  | .macro_ name body, rest, tail, same, doElse => by
    simp only [Stmt.nodes, Stmt.exec, List.singleton_append, renderNodes_cons, renderNode, both, same,
      bind_assoc, pure_bind]
  | .forBlock names iter body branches, rest, tail, same, doElse => by
    have inside := renderNodes_nodesOf body false
    have chosen := renderNodes_choose branches same
    have skipped := renderNodes_skip branches same
    rw [Stmt.nodes, Stmt.exec, List.cons_append, renderNodes_cons, renderNode]
    simp only [inside, both, bind_assoc, pure_bind]
    refine bind_congr fun items => bind_congr fun outputs => ?_
    cases items with
    | nil =>
      simp only [List.isEmpty_nil, chosen, both, bind_assoc, pure_bind, if_true, List.append_assoc]
    | cons item items =>
      simp only [List.isEmpty_cons, skipped, both, bind_assoc, pure_bind, if_false,
        Bool.false_eq_true, List.append_assoc]
  | .ifBlock cond body branches, rest, tail, same, doElse => by
    have inside := renderNodes_nodesOf body false
    have chosen := renderNodes_choose branches same
    have skipped := renderNodes_skip branches same
    rw [Stmt.nodes, Stmt.exec, List.cons_append, renderNodes_cons, renderNode]
    simp only [both, bind_assoc]
    refine bind_congr fun obj => ?_
    split
    · simp only [inside, skipped, both, bind_assoc, pure_bind, List.append_assoc]
    · simp only [chosen, both, pure_bind, List.nil_append, bind_pure]

theorem renderNodes_choose : ∀ (branches : List Branch) {rest : List Node}
    {tail : RenderProgram V (List Text)} (_ : ∀ doElse, renderNodes py rest doElse = tail),
    renderNodes py (branchNodes branches ++ rest) true = both (choose py branches) tail
  | [], rest, tail, same => by
    simp [branchNodes, choose, both, same]
  | .piece piece :: later, rest, tail, same => by
    have chosen := renderNodes_choose later same
    simp only [branchNodes, choose, Branch.node, List.cons_append, renderNodes_piece, chosen, both,
      bind_assoc, pure_bind, List.nil_append]
  | .elif cond body :: later, rest, tail, same => by
    have inside := renderNodes_nodesOf body false
    have chosen := renderNodes_choose later same
    have skipped := renderNodes_skip later same
    rw [branchNodes, choose, Branch.node, List.cons_append, renderNodes_cons, renderNode, if_pos rfl]
    simp only [both, bind_assoc]
    refine bind_congr fun obj => ?_
    split
    · simp only [inside, skipped, both, bind_assoc, pure_bind, List.append_assoc]
    · simp only [chosen, both, pure_bind, List.nil_append, bind_pure]
  | .els body :: later, rest, tail, same => by
    have inside := renderNodes_nodesOf body false
    have skipped := renderNodes_skip later same
    rw [branchNodes, choose, Branch.node, List.cons_append, renderNodes_cons, renderNode, if_pos rfl]
    simp only [inside, skipped, both, bind_assoc, pure_bind, List.append_assoc]

theorem renderNodes_skip : ∀ (branches : List Branch) {rest : List Node}
    {tail : RenderProgram V (List Text)} (_ : ∀ doElse, renderNodes py rest doElse = tail),
    renderNodes py (branchNodes branches ++ rest) false = both (skip py branches) tail
  | [], rest, tail, same => by
    simp [branchNodes, skip, both, same]
  | .piece piece :: later, rest, tail, same => by
    have skipped := renderNodes_skip later same
    simp only [branchNodes, skip, Branch.node, List.cons_append, renderNodes_piece, skipped, both,
      bind_assoc, pure_bind, List.nil_append]
  | .elif cond body :: later, rest, tail, same => by
    have skipped := renderNodes_skip later same
    rw [branchNodes, skip, Branch.node, List.cons_append, renderNodes_cons, renderNode,
      if_neg Bool.false_ne_true]
    simp only [skipped, pure_bind, List.nil_append, bind_pure]
  | .els body :: later, rest, tail, same => by
    have skipped := renderNodes_skip later same
    rw [branchNodes, skip, Branch.node, List.cons_append, renderNodes_cons, renderNode,
      if_neg Bool.false_ne_true]
    simp only [skipped, pure_bind, List.nil_append, bind_pure]

end

theorem render_nodesOf (stmts : List Stmt) : render py (nodesOf stmts) = execAll py stmts :=
  renderNodes_nodesOf py stmts false

/-! ## The trees of the parser -/

/-- The nodes are those of branches of a block that is open before, if any, and of statements. -/
def InBlocks (opened : Bool) (nodes : List Node) : Prop :=
  ∃ branches stmts, nodes = branchNodes branches ++ nodesOf stmts ∧ (opened = false → branches = [])

theorem InBlocks.cons_piece {opened : Bool} {rest : List Node} (piece : Piece)
    (inBlocks : InBlocks opened rest) : InBlocks opened (piece.node :: rest) := by
  obtain ⟨branches, stmts, rfl, closed⟩ := inBlocks
  cases opened with
  | true => exact ⟨.piece piece :: branches, stmts, by rw [branchNodes, Branch.node]; rfl, nofun⟩
  | false =>
    obtain rfl := closed rfl
    exact ⟨[], .piece piece :: stmts, by rw [nodesOf, Stmt.nodes]; rfl, fun _ => rfl⟩

theorem InBlocks.closed {nodes : List Node} (inBlocks : InBlocks false nodes) :
    ∃ stmts, nodes = nodesOf stmts := by
  obtain ⟨branches, stmts, rfl, closed⟩ := inBlocks
  obtain rfl := closed rfl
  exact ⟨stmts, rfl⟩

theorem inBlocks_of_chained : ∀ {nodes : List Node} {opened left : Bool},
    Chained opened nodes left → InBlocks opened nodes
  | [], _, _, _ => ⟨[], [], by rw [branchNodes, nodesOf, List.append_nil], fun _ => rfl⟩
  | node :: rest, opened, left, chained => by
    cases chained with
    | cons here later =>
      have inBlocks := inBlocks_of_chained later
      cases here with
      | str _ text => exact inBlocks.cons_piece (.str text)
      | sub _ expr => exact inBlocks.cons_piece (.sub expr)
      | esc _ format expr => exact inBlocks.cons_piece (.esc format expr)
      | forBlock _ names iter inside =>
        obtain ⟨body, rfl⟩ := (inBlocks_of_chained inside).closed
        obtain ⟨branches, stmts, rfl, -⟩ := inBlocks
        exact ⟨[], .forBlock names iter body branches :: stmts, by
          rw [nodesOf, Stmt.nodes]; rfl, fun _ => rfl⟩
      | ifBlock _ cond inside =>
        obtain ⟨body, rfl⟩ := (inBlocks_of_chained inside).closed
        obtain ⟨branches, stmts, rfl, -⟩ := inBlocks
        exact ⟨[], .ifBlock cond body branches :: stmts, by
          rw [nodesOf, Stmt.nodes]; rfl, fun _ => rfl⟩
      | elifBlock cond inside =>
        obtain ⟨body, rfl⟩ := (inBlocks_of_chained inside).closed
        obtain ⟨branches, stmts, rfl, -⟩ := inBlocks
        exact ⟨.elif cond body :: branches, stmts, by rw [branchNodes, Branch.node]; rfl, nofun⟩
      | elseBlock inside =>
        obtain ⟨body, rfl⟩ := (inBlocks_of_chained inside).closed
        obtain ⟨branches, stmts, rfl, -⟩ := inBlocks
        exact ⟨.els body :: branches, stmts, by rw [branchNodes, Branch.node]; rfl, nofun⟩
      | macroBlock _ name inside =>
        obtain ⟨stmts, rfl⟩ := inBlocks.closed
        exact ⟨[], .macro_ name _ :: stmts, by rw [nodesOf, Stmt.nodes]; rfl, fun _ => rfl⟩
termination_by nodes => sizeOf nodes

/-- Each template that is accepted has the form of blocks, and it is rendered as its blocks say. -/
theorem render_parsed (setup : Setup) (depth : Nat) (template : Text) :
    Returns (fun parsetree => ∃ stmts, nodesOf stmts = parsetree ∧
        ∀ {V : Type} (py : Python V), render py parsetree = execAll py stmts)
      (parseTemplate setup depth template) := by
  refine (parseTemplate_wellFormed setup depth template).mono ?_
  rintro parsetree ⟨left, chained⟩
  obtain ⟨stmts, rfl⟩ := (inBlocks_of_chained chained).closed
  exact ⟨stmts, rfl, fun py => render_nodesOf py stmts⟩

end CloudflareBlog.EPaper.Pyratemp
