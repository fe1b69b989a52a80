import Stencil.Proofs.Assembly.Leaves
import Stencil.Proofs.Grammar.Inline
/-!
# Well-nested markers

The grammar of tokens whose markers are well nested, with the chunks that its derivations stand for:
`B ::= (leaf | if B (elseif B)* (else B)? endif)*`. Assembling accepts exactly these tokens and
makes up the chunks of their derivation. All other errors are those of single expressions.
-/
namespace Stencil

open Text (Position)

/-- What is wrong with the expression or the condition of a token. -/
def Token.errors (ctx : ParseContext) : Token → List TemplateError
  | .expr source _ pos => (Grammar.parseAction ctx pos source).2
  | .ifMark source offset pos => (Grammar.parseCondition ctx (pos.right offset) source).2
  | .elseifMark source offset pos => (Grammar.parseCondition ctx (pos.right offset) source).2
  | _ => []

/-- The error is about the nesting of markers. -/
inductive TemplateError.AboutNesting : TemplateError → Prop
  | stray (pos : Position) (marker : InnerMarker) :
    AboutNesting (.malformed pos (.strayMarker marker))
  | afterElse (pos : Position) (marker : InnerMarker) :
    AboutNesting (.malformed pos (.markerAfterElse marker))
  | unclosed (pos : Position) : AboutNesting (.malformed pos .missingEndif)

def OpenBranch.isArm : OpenBranch → Bool
  | .arm _ _ => true
  | .otherwise _ _ => false

mutual

/-- Tokens whose markers are well nested, and the chunks that they stand for one by one. -/
inductive Nested (ctx : ParseContext) : List Token → List Chunk → Prop
  | nil : Nested ctx [] []
  | leaf {token : Token} {chunk : Chunk} {tokens : List Token} {chunks : List Chunk} :
    token.leaf? ctx = some chunk → Nested ctx tokens chunks →
    Nested ctx (token :: tokens) (chunk :: chunks)
  | conditional (source : List Char) (offset : Nat) (pos : Position)
      {body ending tokens : List Token} {holds chunks : List Chunk} {otherwise : Option Template} :
    Nested ctx body holds → Ending ctx ending otherwise → Nested ctx tokens chunks →
    Nested ctx (.ifMark source offset pos :: (body ++ (ending ++ tokens)))
      (.conditional (Grammar.parseCondition ctx (pos.right offset) source).1
        (.plain ctx.owner (Chunk.join holds)) otherwise :: chunks)

/-- Tokens from the end of a branch to the end of its conditional, and the else branch that they
make up. A further condition is tried in an else branch of its own. -/
inductive Ending (ctx : ParseContext) : List Token → Option Template → Prop
  | endif (pos : Position) : Ending ctx [.endifMark pos] none
  | otherwise (pos pos' : Position) {body : List Token} {chunks : List Chunk} :
    Nested ctx body chunks →
    Ending ctx (.elseMark pos :: (body ++ [.endifMark pos']))
      (some (.plain ctx.owner (Chunk.join chunks)))
  | elseif (source : List Char) (offset : Nat) (pos : Position) {body ending : List Token}
      {holds : List Chunk} {otherwise : Option Template} :
    Nested ctx body holds → Ending ctx ending otherwise →
    Ending ctx (.elseifMark source offset pos :: (body ++ ending))
      (some (.plain ctx.owner [.conditional
        (Grammar.parseCondition ctx (pos.right offset) source).1
        (.plain ctx.owner (Chunk.join holds)) otherwise]))

end

variable {ctx : ParseContext}

theorem Nested.append {tokens more : List Token} {items items' : List Chunk}
    (first : Nested ctx tokens items) (second : Nested ctx more items') :
    Nested ctx (tokens ++ more) (items ++ items') := by
  match first with
  | .nil => exact second
  | .leaf stands rest => exact .leaf stands (rest.append second)
  | .conditional source offset pos body ending rest =>
    have joined := Nested.conditional source offset pos body ending (rest.append second)
    simpa using joined

namespace Assembly

/-! ## Chunks of derivations -/

/-- Adds chunks to the innermost branch, one by one, and errors. -/
def extend (chunks : List Chunk) (errors : List TemplateError) (a : Assembly) : Assembly :=
  (a.addErrors errors).modifyInnermost fun body => chunks.foldl Chunk.push body

variable {a : Assembly} {name : String}

theorem extend_extend (chunks chunks' : List Chunk) (errors errors' : List TemplateError) :
    (a.extend chunks errors).extend chunks' errors' =
      a.extend (chunks ++ chunks') (errors ++ errors') := by
  obtain ⟨outside, _ | ⟨c, outer⟩, old⟩ := a <;>
    simp [extend, addErrors, modifyInnermost, List.foldl_append]

/-- What is added to a branch that has just been opened is joined there. -/
theorem extend_opened (outside : List Chunk) (branch : OpenBranch) (pos : Position)
    (outer : List OpenConditional) (old : List TemplateError) (chunks : List Chunk)
    (errors : List TemplateError) :
    extend chunks errors ⟨outside, ⟨branch, [], pos⟩ :: outer, old⟩ =
      ⟨outside, ⟨branch, Chunk.join chunks, pos⟩ :: outer, old ++ errors⟩ := by
  rw [← Chunk.foldl_push_nil]
  rfl

theorem extend_nil (a : Assembly) : a.extend [] [] = a := by
  obtain ⟨outside, _ | ⟨c, outer⟩, old⟩ := a <;> simp [extend, addErrors, modifyInnermost]

theorem addToken_leaf {token : Token} {chunk : Chunk} (leaf : token.leaf? ctx = some chunk)
    (a : Assembly) : a.addToken ctx token = a.extend [chunk] (token.errors ctx) := by
  have unchanged : a.addErrors [] = a := by simp [addErrors]
  cases token with
  | text s =>
    cases leaf
    simp only [addToken, extend, Token.errors, unchanged]
    rfl
  | newline s =>
    cases leaf
    simp only [addToken, extend, Token.errors, unchanged]
    rfl
  | expr source indent? pos =>
    cases leaf
    rfl
  | _ => cases leaf

/-- The conditional of the arms `before` and `last`. -/
def chain (name : String) (before : List Arm) (last : Arm) (otherwise : Option Template) : Chunk :=
  match before with
  | [] => conditional name last otherwise []
  | first :: more => conditional name first otherwise (more ++ [last])

theorem conditional_append (name : String) (first next : Arm) (otherwise : Option Template)
    (more : List Arm) :
    conditional name first otherwise (more ++ [next]) =
      conditional name first (some (.plain name [.conditional next.condition
        (.plain name next.body) otherwise])) more := by
  induction more generalizing first with
  | nil => rfl
  | cons second more ih => rw [List.cons_append, conditional, ih, conditional]

/-- A further condition is tried where no earlier one holds. -/
theorem chain_append (name : String) (before : List Arm) (last next : Arm)
    (otherwise : Option Template) :
    chain name (before ++ [last]) next otherwise =
      chain name before last (some (.plain name [.conditional next.condition
        (.plain name next.body) otherwise])) := by
  cases before with
  | nil => exact conditional_append name last next otherwise []
  | cons first more => exact conditional_append name first next otherwise (more ++ [last])

theorem closed_arm (name : String) (before : List Arm) (condition : Expr) (body : List Chunk)
    (pos : Position) :
    closed name ⟨.arm before condition, body, pos⟩ = chain name before ⟨condition, body⟩ none := by
  cases before <;> rfl

theorem closed_otherwiseAfter (name : String) (before : List Arm) (last : Arm) (body : List Chunk)
    (pos : Position) :
    closed name ⟨otherwiseAfter before last, body, pos⟩ =
      chain name before last (some (.plain name body)) := by
  cases before <;> rfl

/-- A conditional is never joined with what stands before it. -/
theorem addChunk_chain (before : List Arm) (last : Arm) (otherwise : Option Template) :
    a.addChunk (chain name before last otherwise) =
      a.extend [chain name before last otherwise] [] := by
  have isConditional (first : Arm) (more : List Arm) :
      ∃ c holds o, conditional name first otherwise more = .conditional c holds o := by
    cases more <;> exact ⟨_, _, _, rfl⟩
  have unchanged : a.addErrors [] = a := by simp [addErrors]
  obtain ⟨c, holds, o, same⟩ :
      ∃ c holds o, chain name before last otherwise = .conditional c holds o := by
    cases before <;> exact isConditional _ _
  rw [extend, unchanged, same]
  rfl

mutual

/-- Well-nested tokens add the chunks of their derivation, wherever they stand. -/
theorem foldl_nested {tokens : List Token} {items : List Chunk} (nested : Nested ctx tokens items)
    (a : Assembly) :
    tokens.foldl (addToken ctx) a = a.extend items (tokens.flatMap (Token.errors ctx)) := by
  match nested with
  | .nil => exact (extend_nil a).symm
  | .leaf stands rest =>
    rw [List.foldl_cons, addToken_leaf stands, foldl_nested rest, extend_extend]
    rfl
  | @Nested.conditional _ source offset pos body ending rest holds chunks otherwise inner ends
      outer =>
    obtain ⟨outside, conditionals, old⟩ := a
    let read := Grammar.parseCondition ctx (pos.right offset) source
    have opened : addToken ctx ⟨outside, conditionals, old⟩ (.ifMark source offset pos) =
        ⟨outside, ⟨.arm [] read.1, [], pos⟩ :: conditionals, old ++ read.2⟩ := rfl
    rw [List.foldl_cons, opened, List.foldl_append, foldl_nested inner, extend_opened,
      List.foldl_append, foldl_ending ends, foldl_nested outer, extend_extend]
    have started : (⟨outside, conditionals, old ++ read.2 ++ body.flatMap (Token.errors ctx)⟩ :
        Assembly) = extend [] (read.2 ++ body.flatMap (Token.errors ctx))
          ⟨outside, conditionals, old⟩ := by
      cases conditionals <;> simp [extend, addErrors, modifyInnermost]
    rw [started, extend_extend]
    simp [chain, conditional, Token.errors, read]

/-- The tokens at the end of a conditional close it. -/
theorem foldl_ending {tokens : List Token} {otherwise : Option Template}
    (ending : Ending ctx tokens otherwise) (outside : List Chunk) (before : List Arm)
    (condition : Expr) (body : List Chunk) (pos : Position) (outer : List OpenConditional)
    (old : List TemplateError) :
    tokens.foldl (addToken ctx) ⟨outside, ⟨.arm before condition, body, pos⟩ :: outer, old⟩ =
      extend [chain ctx.owner before ⟨condition, body⟩ otherwise]
        (tokens.flatMap (Token.errors ctx)) ⟨outside, outer, old⟩ := by
  match ending with
  | .endif _ =>
    have closes : addChunk (closed ctx.owner ⟨.arm before condition, body, pos⟩)
        ⟨outside, outer, old⟩ = extend [chain ctx.owner before ⟨condition, body⟩ none] []
          ⟨outside, outer, old⟩ := by
      rw [closed_arm, addChunk_chain]
    exact closes
  | @Ending.otherwise _ pos₁ pos₂ inner chunks nested =>
    have opened : addToken ctx ⟨outside, ⟨.arm before condition, body, pos⟩ :: outer, old⟩
        (.elseMark pos₁) =
        ⟨outside, ⟨otherwiseAfter before ⟨condition, body⟩, [], pos⟩ :: outer, old⟩ := rfl
    have closes (read : List Chunk) (errors : List TemplateError) :
        addToken ctx ⟨outside, ⟨otherwiseAfter before ⟨condition, body⟩, read, pos⟩ :: outer,
          errors⟩ (.endifMark pos₂) =
        extend [chain ctx.owner before ⟨condition, body⟩ (some (.plain ctx.owner read))] []
          ⟨outside, outer, errors⟩ := by
      rw [← addChunk_chain, ← closed_otherwiseAfter _ _ _ _ pos]
      rfl
    rw [List.foldl_cons, opened, List.foldl_append, foldl_nested nested, extend_opened,
      List.foldl_cons, closes, List.foldl_nil]
    cases outer <;> simp [extend, addErrors, modifyInnermost, Token.errors]
  | @Ending.elseif _ source offset pos₁ inner rest holds otherwise nested ends =>
    let read := Grammar.parseCondition ctx (pos₁.right offset) source
    have opened : addToken ctx ⟨outside, ⟨.arm before condition, body, pos⟩ :: outer, old⟩
        (.elseifMark source offset pos₁) =
        ⟨outside, ⟨.arm (before ++ [⟨condition, body⟩]) read.1, [], pos⟩ :: outer,
          old ++ read.2⟩ := rfl
    rw [List.foldl_cons, opened, List.foldl_append, foldl_nested nested, extend_opened,
      foldl_ending ends, chain_append]
    cases outer <;> simp [extend, addErrors, modifyInnermost, Token.errors, read]

end

/-- Well-nested tokens make up the chunks of their derivation, and their errors are those of the
expressions. -/
theorem ofTokens_nested {tokens : List Token} {items : List Chunk}
    (nested : Nested ctx tokens items) :
    ofTokens ctx tokens = (Chunk.join items, tokens.flatMap (Token.errors ctx)) := by
  rw [ofTokens, foldl_nested nested, extend, modifyInnermost]
  simp only [empty, addErrors, finish, closeAll, List.nil_append]
  exact congrArg (·, _) (Chunk.foldl_push_nil items)

/-! ## Open branches -/

/-- The kinds of the branches that are open, the innermost first. -/
def branches (a : Assembly) : List Bool := a.conditionals.map fun c => c.branch.isArm

@[simp] theorem errors_modifyInnermost (f : List Chunk → List Chunk) (a : Assembly) :
    (a.modifyInnermost f).errors = a.errors := by
  unfold modifyInnermost
  split <;> rfl

@[simp] theorem branches_modifyInnermost (f : List Chunk → List Chunk) (a : Assembly) :
    (a.modifyInnermost f).branches = a.branches := by
  unfold modifyInnermost
  split
  · rfl
  · rename_i c outer inside
    simp [branches, inside]

theorem errors_closeInnermost (name : String) (a : Assembly) :
    (a.closeInnermost name).errors = a.errors := by
  unfold closeInnermost
  split
  · rfl
  · exact errors_modifyInnermost _ _

theorem branches_closeInnermost (name : String) (a : Assembly) :
    (a.closeInnermost name).branches = a.branches.tail := by
  unfold closeInnermost
  split
  · rename_i outside
    simp [branches, outside]
  · rename_i c outer inside
    refine (branches_modifyInnermost _ _).trans ?_
    simp [branches, inside]

/-- A marker that may follow the open branch opens a branch in its place. -/
theorem nextBranch_arm (pos : Position) (marker : InnerMarker)
    {next : List Arm → Arm → OpenBranch} {kind : Bool} {outer : List Bool}
    (opens : ∀ before last, (next before last).isArm = kind)
    (inside : a.branches = true :: outer) :
    (a.nextBranch pos marker next).errors = a.errors ∧
      (a.nextBranch pos marker next).branches = kind :: outer := by
  obtain ⟨chunks, _ | ⟨⟨branch, body, pos'⟩, conditionals⟩, errors⟩ := a
  · cases inside
  · cases branch with
    | otherwise first more => cases inside
    | arm before condition =>
      obtain ⟨-, rfl⟩ := List.cons.inj inside
      exact ⟨rfl, congrArg (· :: _) (opens _ _)⟩

/-! ## Reports about markers -/

/-- What a marker is reported for where branches of these kinds are open. -/
def markerReports (kinds : List Bool) : Token → List TemplateError
  | .elseifMark _ _ pos =>
    match kinds with
    | [] => [.malformed pos (.strayMarker .elseif)]
    | false :: _ => [.malformed pos (.markerAfterElse .elseif)]
    | true :: _ => []
  | .elseMark pos =>
    match kinds with
    | [] => [.malformed pos (.strayMarker .otherwise)]
    | false :: _ => [.malformed pos (.markerAfterElse .otherwise)]
    | true :: _ => []
  | .endifMark pos =>
    match kinds with
    | [] => [.malformed pos (.strayMarker .endif)]
    | _ :: _ => []
  | _ => []

/-- The conditionals that are left open at the end. -/
def unclosedReports (a : Assembly) : List TemplateError :=
  a.conditionals.map fun c => .malformed c.pos .missingEndif

/-- All that is reported about markers from an assembly on. -/
def reports (ctx : ParseContext) (a : Assembly) : List Token → List TemplateError
  | [] => a.unclosedReports
  | token :: rest => markerReports a.branches token ++ reports ctx (a.addToken ctx token) rest

/-- The branches that are open behind a token which is not reported. -/
def branchesAfter (kinds : List Bool) : Token → List Bool
  | .ifMark _ _ _ => true :: kinds
  | .elseMark _ => false :: kinds.tail
  | .endifMark _ => kinds.tail
  | _ => kinds

theorem errors_nextBranch (pos : Position) (marker : InnerMarker)
    (next : List Arm → Arm → OpenBranch) (a : Assembly) :
    (a.nextBranch pos marker next).errors = a.errors ++
      match a.branches with
      | [] => [.malformed pos (.strayMarker marker)]
      | false :: _ => [.malformed pos (.markerAfterElse marker)]
      | true :: _ => [] := by
  obtain ⟨outside, _ | ⟨⟨branch, body, pos'⟩, outer⟩, old⟩ := a
  · rfl
  · cases branch with
    | otherwise first more => rfl
    | arm before condition => exact (List.append_nil old).symm

theorem errors_addToken (ctx : ParseContext) (a : Assembly) (token : Token) :
    (a.addToken ctx token).errors =
      a.errors ++ (token.errors ctx ++ markerReports a.branches token) := by
  cases token with
  | text s => simp [addToken, addText, Token.errors, markerReports]
  | newline s => simp [addToken, addChunk, Token.errors, markerReports]
  | expr source indent? pos =>
    simp [addToken, addChunk, addErrors, Token.errors, markerReports]
  | ifMark source offset pos => simp [addToken, addErrors, Token.errors, markerReports]
  | elseifMark source offset pos =>
    refine (errors_nextBranch pos .elseif _ _).trans ?_
    exact List.append_assoc _ _ _
  | elseMark pos => exact errors_nextBranch pos .otherwise _ a
  | endifMark pos =>
    obtain ⟨outside, _ | ⟨c, outer⟩, old⟩ := a
    · rfl
    · exact (errors_closeInnermost ctx.owner _).trans (List.append_nil old).symm

theorem branches_addToken (ctx : ParseContext) {a : Assembly} {token : Token}
    (unreported : markerReports a.branches token = []) :
    (a.addToken ctx token).branches = branchesAfter a.branches token := by
  have opened (kinds : List Bool) (stray late : TemplateError)
      (fits : (match kinds with
        | [] => [stray]
        | false :: _ => [late]
        | true :: _ => []) = []) : kinds = true :: kinds.tail := by
    match kinds with
    | [] => cases fits
    | true :: _ => rfl
    | false :: _ => cases fits
  cases token with
  | text s => exact branches_modifyInnermost _ _
  | newline s => exact branches_modifyInnermost _ _
  | expr source indent? pos => exact branches_modifyInnermost _ _
  | ifMark source offset pos => rfl
  | elseifMark source offset pos =>
    have inside := opened _ _ _ unreported
    have opens (condition : Expr) (before : List Arm) (last : Arm) :
        (OpenBranch.arm (before ++ [last]) condition).isArm = true := rfl
    let read := Grammar.parseCondition ctx (pos.right offset) source
    exact (nextBranch_arm (a := a.addErrors read.2) pos .elseif (opens read.1) inside).2.trans
      inside.symm
  | elseMark pos =>
    have inside := opened _ _ _ unreported
    have opens (before : List Arm) (last : Arm) : (otherwiseAfter before last).isArm = false := by
      cases before <;> rfl
    exact (nextBranch_arm pos .otherwise opens inside).2
  | endifMark pos =>
    obtain ⟨outside, _ | ⟨c, outer⟩, old⟩ := a
    · cases unreported
    · exact branches_closeInnermost ctx.owner _

theorem errors_closeAll (name : String) (open_ : List OpenConditional) (a : Assembly) :
    (closeAll name open_ a).errors =
      a.errors ++ open_.map fun c => .malformed c.pos .missingEndif := by
  induction open_ generalizing a with
  | nil => simp [closeAll]
  | cons c outer ih =>
    rw [closeAll, ih, errors_closeInnermost]
    simp [report, addErrors]

/-- The errors of an assembly are those of the expressions and those about markers. -/
theorem errors_perm (ctx : ParseContext) (tokens : List Token) (a : Assembly) :
    ((tokens.foldl (addToken ctx) a).finish ctx.owner).2.Perm
      (a.errors ++ (tokens.flatMap (Token.errors ctx) ++ a.reports ctx tokens)) := by
  induction tokens generalizing a with
  | nil => exact .of_eq (errors_closeAll ctx.owner a.conditionals a)
  | cons token rest ih =>
    refine (ih _).trans ?_
    rw [errors_addToken, List.flatMap_cons, reports, List.append_assoc, List.append_assoc,
      List.append_assoc]
    refine .append_left _ (.append_left _ ?_)
    rw [← List.append_assoc, ← List.append_assoc]
    exact .append_right _ List.perm_append_comm

theorem aboutNesting_of_mem_reports {tokens : List Token} {a : Assembly} {e : TemplateError}
    (member : e ∈ a.reports ctx tokens) : e.AboutNesting := by
  induction tokens generalizing a with
  | nil =>
    obtain ⟨c, -, rfl⟩ := List.mem_map.1 member
    exact .unclosed c.pos
  | cons token rest ih =>
    rcases List.mem_append.1 member with here | later
    · unfold markerReports at here
      split at here <;> try split at here
      all_goals first
        | cases List.mem_singleton.1 here
          constructor
        | cases here
    · exact ih later

/-- Well-nested tokens are not reported. -/
theorem reports_nested {tokens : List Token} {items : List Chunk}
    (nested : Nested ctx tokens items) : empty.reports ctx tokens = [] := by
  have errors := errors_perm ctx tokens empty
  change (ofTokens ctx tokens).2.Perm _ at errors
  rw [ofTokens_nested nested] at errors
  have lengths := errors.length_eq
  dsimp only at lengths
  rw [List.length_append, List.length_append] at lengths
  have nothing : empty.errors.length = 0 := rfl
  exact List.eq_nil_of_length_eq_zero (by omega)

/-! ## Tokens without reports -/

/-- The tokens close all branches of these kinds, which are open before them. -/
def Completes (ctx : ParseContext) : List Bool → List Token → Prop
  | [], tokens => ∃ items, Nested ctx tokens items
  | true :: outer, tokens => ∃ body items ending otherwise rest,
    tokens = body ++ (ending ++ rest) ∧ Nested ctx body items ∧ Ending ctx ending otherwise ∧
      Completes ctx outer rest
  | false :: outer, tokens => ∃ body items pos rest,
    tokens = body ++ (.endifMark pos :: rest) ∧ Nested ctx body items ∧ Completes ctx outer rest

namespace Completes

variable {kinds : List Bool} {block tokens : List Token} {items : List Chunk}

/-- Well-nested tokens may come first. -/
theorem prepend (nested : Nested ctx block items) (completes : Completes ctx kinds tokens) :
    Completes ctx kinds (block ++ tokens) := by
  match kinds with
  | [] =>
    obtain ⟨items', rest⟩ := completes
    exact ⟨_, nested.append rest⟩
  | true :: outer =>
    obtain ⟨body, items', ending, otherwise, rest, rfl, inner, ends, completes⟩ := completes
    exact ⟨_, _, ending, otherwise, rest, (List.append_assoc _ _ _).symm, nested.append inner, ends,
      completes⟩
  | false :: outer =>
    obtain ⟨body, items', pos, rest, rfl, inner, completes⟩ := completes
    exact ⟨_, _, pos, rest, (List.append_assoc _ _ _).symm, nested.append inner, completes⟩

/-- A conditional that is closed behind its `if` is one more chunk. -/
theorem conditional {source : List Char} {offset : Nat} {pos : Position}
    (completes : Completes ctx (true :: kinds) tokens) :
    Completes ctx kinds (.ifMark source offset pos :: tokens) := by
  obtain ⟨body, items, ending, otherwise, rest, rfl, inner, ends, completes⟩ := completes
  have block := Nested.conditional source offset pos inner ends .nil
  have whole := prepend block completes
  rw [List.append_nil] at whole
  simpa using whole

theorem elseif {source : List Char} {offset : Nat} {pos : Position}
    (completes : Completes ctx (true :: kinds) tokens) :
    Completes ctx (true :: kinds) (.elseifMark source offset pos :: tokens) := by
  obtain ⟨body, items, ending, otherwise, rest, rfl, inner, ends, completes⟩ := completes
  have ends' := Ending.elseif source offset pos inner ends
  exact ⟨[], [], _, _, rest, by simp, .nil, ends', completes⟩

theorem otherwise {pos : Position} (completes : Completes ctx (false :: kinds) tokens) :
    Completes ctx (true :: kinds) (.elseMark pos :: tokens) := by
  obtain ⟨body, items, pos', rest, rfl, inner, completes⟩ := completes
  have ends := Ending.otherwise pos pos' inner
  exact ⟨[], [], _, _, rest, by simp, .nil, ends, completes⟩

theorem endif {kind : Bool} {pos : Position} (completes : Completes ctx kinds tokens) :
    Completes ctx (kind :: kinds) (.endifMark pos :: tokens) := by
  cases kind with
  | true => exact ⟨[], [], _, _, tokens, rfl, .nil, .endif pos, completes⟩
  | false => exact ⟨[], [], pos, tokens, rfl, .nil, completes⟩

/-- A token that is not reported goes before tokens that close what is open behind it. -/
theorem cons {token : Token} (unreported : markerReports kinds token = [])
    (completes : Completes ctx (branchesAfter kinds token) tokens) :
    Completes ctx kinds (token :: tokens) := by
  have single {chunk : Chunk} (leaf : token.leaf? ctx = some chunk) :
      Nested ctx [token] [chunk] := .leaf leaf .nil
  cases token with
  | text s => exact completes.prepend (single rfl)
  | newline s => exact completes.prepend (single rfl)
  | expr source indent? pos => exact completes.prepend (single rfl)
  | ifMark source offset pos => exact completes.conditional
  | elseifMark source offset pos =>
    match kinds with
    | [] => cases unreported
    | false :: _ => cases unreported
    | true :: _ => exact completes.elseif
  | elseMark pos =>
    match kinds with
    | [] => cases unreported
    | false :: _ => cases unreported
    | true :: _ => exact completes.otherwise
  | endifMark pos =>
    match kinds with
    | [] => cases unreported
    | _ :: _ => exact completes.endif

end Completes

theorem completes_of_reports {tokens : List Token} {a : Assembly}
    (clean : a.reports ctx tokens = []) :
    Completes ctx a.branches tokens := by
  induction tokens generalizing a with
  | nil =>
    have closed : a.conditionals = [] := List.map_eq_nil_iff.1 clean
    rw [branches, closed]
    exact ⟨[], .nil⟩
  | cons token rest ih =>
    obtain ⟨unreported, later⟩ := List.append_eq_nil_iff.1 clean
    refine Completes.cons unreported ?_
    rw [← branches_addToken ctx unreported]
    exact ih later

/-- Nothing is reported about markers exactly if they are well nested. -/
theorem reports_eq_nil_iff {tokens : List Token} :
    empty.reports ctx tokens = [] ↔ ∃ items, Nested ctx tokens items :=
  ⟨completes_of_reports, fun ⟨_, nested⟩ => reports_nested nested⟩

/-- Assembling keeps the leaves of all tokens in their order, reports something about markers exactly
if they are not well nested, and if they are, makes up the chunks of their derivation. -/
theorem ofTokens_assembles (ctx : ParseContext) (tokens : List Token) :
    Chunk.Merged (Chunk.allLeaves (ofTokens ctx tokens).1) (tokens.filterMap (Token.leaf? ctx)) ∧
    (∃ reports : List TemplateError,
      (ofTokens ctx tokens).2.Perm (tokens.flatMap (Token.errors ctx) ++ reports) ∧
      (∀ e ∈ reports, e.AboutNesting) ∧
      (reports = [] ↔ ∃ items, Nested ctx tokens items)) ∧
    ∀ items, Nested ctx tokens items → (ofTokens ctx tokens).1 = Chunk.join items := by
  refine ⟨merged_ofTokens ctx tokens, ⟨empty.reports ctx tokens, ?_, ?_, reports_eq_nil_iff⟩, ?_⟩
  · exact errors_perm ctx tokens empty
  · exact fun _ => aboutNesting_of_mem_reports
  · intro items nested
    rw [ofTokens_nested nested]

/-- `$if(a)$x$elseif(b)$y$else$z$endif$t` -/
theorem elseif_chain_assembles :
    let ctx : ParseContext := ⟨"page", fun _ _ => ([], [])⟩
    let tokens : List Token := [.ifMark ['a'] 3 ⟨1, 2⟩, .text ['x'], .elseifMark ['b'] 7 ⟨1, 9⟩,
      .text ['y'], .elseMark ⟨1, 21⟩, .text ['z'], .endifMark ⟨1, 28⟩, .text ['t']]
    (ofTokens ctx tokens).1 =
      [.conditional (.attribute "a") (.plain "page" [.literal "x"])
        (some (.plain "page" [.conditional (.attribute "b") (.plain "page" [.literal "y"])
          (some (.plain "page" [.literal "z"]))])), .literal "t"] := by
  intro ctx tokens
  have word {pos stop : Position} {source : List Char} {name : String}
      (scanned : Lexeme.scan pos source = .ok ⟨[⟨.name name, pos⟩], stop⟩) :
      (Grammar.parseCondition ctx pos source).1 = .attribute name := by
    rw [Grammar.parseCondition, Grammar.parseAll, scanned]
    rfl
  have first : Lexeme.scan (Position.right ⟨1, 2⟩ 3) ['a'] =
      .ok ⟨[⟨.name "a", ⟨1, 5⟩⟩], ⟨1, 6⟩⟩ := by
    cbv
  have second : Lexeme.scan (Position.right ⟨1, 9⟩ 7) ['b'] =
      .ok ⟨[⟨.name "b", ⟨1, 16⟩⟩], ⟨1, 17⟩⟩ := by
    cbv
  have text (c : Char) : Nested ctx [.text [c]] [.literal (String.ofList [c])] := .leaf rfl .nil
  have ending := Ending.elseif ['b'] 7 ⟨1, 9⟩ (text 'y') (.otherwise ⟨1, 21⟩ ⟨1, 28⟩ (text 'z'))
  have nested := Nested.conditional ['a'] 3 ⟨1, 2⟩ (text 'x') ending (text 't')
  obtain ⟨-, -, tree⟩ := ofTokens_assembles ctx tokens
  have assembled := tree _ nested
  rw [word first, word second] at assembled
  exact assembled

end Assembly
end Stencil
