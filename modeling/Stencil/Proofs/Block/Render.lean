import Mathlib
import Stencil.Group.Library
import Stencil.Proofs.Block.Choice
import Stencil.Proofs.Block.Source
/-!
# Blocks leave no trace

A block is rendered as its body alone would be where the condition holds, and as nothing where it
does not.
-/
namespace Stencil

open Arena Recast
open Text (EndsLine)

section Chosen

variable {setting : Setting} {a : Arena} {root : Handle} {before behind first second : List Chunk}
  {condition : Expr} {holds : Template} {otherwise : Option Template} {w : Writer}
  {t u : RenderState} {v : Value} {depth : Nat}

/-- Under evaluators that agree, a root with a conditional among its chunks comes to what it does
with those that are chosen instead. -/
theorem Recast.render_chosen_of_related (closed : a.Closed IsInstance) (inside : a.contains root)
    (chunks : (a.get root).template.chunks = first)
    (isFirst : first = before ++ .conditional condition holds otherwise :: behind)
    (isSecond : second = before ++ (Chunk.chosen holds otherwise v ++ behind)) {ev : Evaluator}
    (rel : (Recast.lockstep setting a root first second fun _ => True).Related ev
      (.ofDepth setting depth))
    (decides : ev.Decides setting root before condition ⟨a, [], w⟩ t v u)
    (frame : setting.strict = true ∨ Frame root t.arena u.arena) {n : Nat} {s : RenderState}
    (ended : ev.renderStep setting root first ⟨a, [], w⟩ = .ok n s) :
    ∃ s', (Evaluator.ofDepth setting (depth + 1)).render root second
        ⟨a.recast root second, [], w⟩ = .ok n s' ∧ s'.writer = s.writer := by
  have : (Recast.lockstep setting a root first second fun _ => True).Suits setting := ⟨trivial⟩
  have laws : (Recast.lockstep setting a root first second fun _ => True).Lawful :=
    Recast.lawful inside
  have alike := Recast.alike_recast inside chunks second
  have coupled : (Recast.lockstep setting a root first second fun _ => True).Coupled root root a
      (a.recast root second) :=
    ⟨⟨rfl, alike⟩, Steady.standing_root closed inside fun _ => List.mem_singleton.1⟩
  obtain ⟨_, s₁, whole, writer, -, -, rfl⟩ :=
    (Lockstep.agrees_renderStep setting laws rel coupled first).ends trivial ended []
  obtain ⟨t', v', u', decides', ⟨begun, -⟩, ⟨evaluated, moved⟩, same⟩ :=
    Lockstep.exists_decides laws rel coupled (fun _ => trivial) decides []
  have frame' : Frame root t'.arena u'.arena :=
    begun.sameLinks.frame_of_frame root evaluated.sameLinks (frame.elim moved.frame id)
  have chosen : Chunk.chosen holds otherwise v = Chunk.chosen holds otherwise v' := by
    simp only [Chunk.chosen, same.truthy_eq]
  rw [isFirst] at whole
  obtain ⟨s', ran, same⟩ := Evaluator.render_chosen (alike.closed closed) (alike.within inside)
    decides' (Or.inr frame') whole
  rw [← chosen, ← isSecond] at ran
  exact ⟨s', ran, same.trans writer⟩

/-- The run to compare with is the render's own if it is strict, and otherwise the one that is
barred from the root. -/
theorem Recast.exists_compared (inside : a.contains root)
    (isFirst : (a.get root).template.chunks =
      before ++ .conditional condition holds otherwise :: behind) {r : Rendered}
    (ended : (setting.renderWithin (depth + 1) a root w).result = .ok r)
    (decides : (Evaluator.ofDepth setting depth).Decides setting root before condition ⟨a, [], w⟩
      t v u)
    (once : setting.strict = true ∨ setting.WritesOnce (depth + 1) a root w) :
    ∃ ev s, (Recast.lockstep setting a root (a.get root).template.chunks second
        fun _ => True).Related ev (.ofDepth setting depth) ∧
      ev.Decides setting root before condition ⟨a, [], w⟩ t v u ∧
      ev.renderStep setting root (a.get root).template.chunks ⟨a, [], w⟩ = .ok r.chars s ∧
      s.writer = (setting.renderWithin (depth + 1) a root w).writer := by
  have : (Recast.lockstep setting a root (a.get root).template.chunks second
    fun _ => True).Suits setting := ⟨trivial⟩
  rcases once with isStrict | once
  · obtain ⟨s, ran, -, writer⟩ := Evaluator.ran_of_outcome ended
    exact ⟨_, s, Recast.related_strict isStrict inside (Nat.le_refl depth), decides, ran, writer⟩
  · rw [← once.result] at ended
    obtain ⟨s, ran, -, writer⟩ := Evaluator.ran_of_outcome ended
    refine ⟨_, s, Recast.related_barred inside (Nat.le_refl depth), ?_, ran,
      writer.trans once.writer⟩
    have comes := ran
    rw [isFirst] at comes
    obtain ⟨t', v', u', barred⟩ := Evaluator.exists_decides comes
    have decides' := barred.of_related (Deeper.related_barred setting root (Nat.le_refl depth))
    obtain ⟨rfl, rfl, rfl⟩ := decides.unique decides'
    exact barred

/-- A render that comes to an end writes the same if a conditional among the chunks of its root
gives way to what it chooses. Unless the setting is strict, the root must not be written again, and
evaluating the condition must leave the links around the root as they were. -/
theorem Recast.render_chosen (closed : a.Closed IsInstance) (inside : a.contains root)
    (isFirst : (a.get root).template.chunks =
      before ++ .conditional condition holds otherwise :: behind)
    (isSecond : second = before ++ (Chunk.chosen holds otherwise v ++ behind)) {r : Rendered}
    (ended : (setting.renderWithin (depth + 1) a root w).result = .ok r)
    (decides : (Evaluator.ofDepth setting depth).Decides setting root before condition ⟨a, [], w⟩
      t v u)
    (harmless : setting.strict = true ∨
      setting.WritesOnce (depth + 1) a root w ∧ Frame root t.arena u.arena) :
    let outcome := setting.renderWithin (depth + 1) (a.recast root second) root w
    (∃ ds, outcome.result = .ok ⟨r.chars, ds⟩) ∧
      outcome.writer = (setting.renderWithin (depth + 1) a root w).writer := by
  obtain ⟨ev, s, rel, decides, ran, writer⟩ :=
    exists_compared inside isFirst ended decides (harmless.imp_right And.left)
  obtain ⟨s', ran', same⟩ := render_chosen_of_related closed inside rfl isFirst isSecond rel decides
    (harmless.imp_right And.right) ran
  have right := (Recast.alike_recast inside rfl second).right
  simp only [Setting.renderWithin, right, ran']
  exact ⟨⟨_, rfl⟩, same.trans writer⟩

end Chosen

/-- A conditional whose markers have lines of their own, between whole lines and anything else,
compiles if its parts do. A render that comes to an end goes on to the condition from the lines
before it, and where the condition holds it writes what it would with the body alone in place of the
block, and otherwise what it would without the block. The templates stored in the arena are
instances, which `Reachable.invariant` proves of all arenas that hosts and renders make. Unless the
setting is strict, the root must not be written again, and evaluating the condition must leave the
links around the root as they were. -/
theorem block_leaves_no_trace {d : Delimiters} (builtIn : d.IsBuiltIn) {name : String}
    {before body behind condition indent indent' nl : List Char}
    (ends : EndsLine before) (ends' : EndsLine body)
    (clean : (compileChunks d name before).2 = []) (clean' : (compileChunks d name body).2 = [])
    (clean'' : (compileChunks d name behind).2 = [])
    (blanks : indent.all Token.isIndent = true) (blanks' : indent'.all Token.isIndent = true)
    (lineFeed : nl = ['\n'] ∨ nl = ['\r', '\n'])
    (readable : (compileCondition d name condition).2 = []) :
    ∃ block shown hidden : Template,
      Template.compile d name
        (.ofList (before ++ (d.block indent indent' nl condition body ++ behind))) = .ok block ∧
      Template.compile d name (.ofList (before ++ (body ++ behind))) = .ok shown ∧
      Template.compile d name (.ofList (before ++ behind)) = .ok hidden ∧
      ∀ {setting : Setting} {a : Arena} {root : Handle} {w : Writer} {depth : Nat} {r : Rendered},
        a.Closed IsInstance → a.contains root → (a.get root).template.chunks = block.chunks →
        (setting.renderWithin (depth + 1) a root w).result = .ok r →
        ∃ t v u, (Evaluator.ofDepth setting depth).Decides setting root
            (compileChunks d name before).1 (compileCondition d name condition).1 ⟨a, [], w⟩ t v u ∧
          (setting.strict = true ∨
            setting.WritesOnce (depth + 1) a root w ∧ Frame root t.arena u.arena →
          let outcome := setting.renderWithin (depth + 1)
            (a.recast root (if v.truthy then shown else hidden).chunks) root w
          (∃ ds, outcome.result = .ok ⟨r.chars, ds⟩) ∧
            outcome.writer = (setting.renderWithin (depth + 1) a root w).writer) := by
  have alone : compileChunks d name (d.block indent indent' nl condition body) = _ :=
    compileChunks_block builtIn blanks blanks' lineFeed readable ends' clean'
  have endsBlock := endsLine_block (d := d) lineFeed ends' indent indent' condition
  have isBlock := compileChunks_between builtIn ends endsBlock clean (congrArg Prod.snd alone)
    clean''
  have isShown := compileChunks_between builtIn ends ends' clean clean' clean''
  have isHidden := compileChunks_append builtIn ends clean clean''
  refine ⟨_, _, _, Template.compile_eq_ok_iff.2 ⟨congrArg Prod.snd isBlock, rfl⟩,
    Template.compile_eq_ok_iff.2 ⟨congrArg Prod.snd isShown, rfl⟩,
    Template.compile_eq_ok_iff.2 ⟨congrArg Prod.snd isHidden, rfl⟩, ?_⟩
  intro setting a root w depth r closed inside same ended
  rw [isBlock, alone] at same
  have ended' : ((Evaluator.ofDepth setting (depth + 1)).outcome a root w).result = .ok r := ended
  obtain ⟨s, ran, -⟩ := Evaluator.ran_of_outcome ended'
  rw [same] at ran
  obtain ⟨t, v, u, decides⟩ := Evaluator.exists_decides ran
  refine ⟨t, v, u, decides, Recast.render_chosen closed inside same ?_ ended decides⟩
  unfold Chunk.chosen
  cases v.truthy with
  | true => exact congrArg Prod.fst isShown
  | false => exact congrArg Prod.fst isHidden

namespace Block

def page : Template :=
  .plain "page" [.literal "x", .newline "\n",
    .conditional (.attribute "v") (.plain "page" [.literal "a", .newline "\n"]) none, .literal "b"]

def shown : Arena := (Arena.empty.instantiate page).2.setAttribute ⟨0⟩ "v" (.bool true)

end Block

theorem page_block_leaves_no_trace :
    ∃ t, Template.compile .dollar "page" (.ofList (['x', '\n'] ++ (['a', '\n'] ++ ['b']))) = .ok t ∧
      let outcome := Setting.standard.renderWithin 4 (Block.shown.recast ⟨0⟩ t.chunks) ⟨0⟩
        (.fresh .autoIndent)
      (∃ ds, outcome.result = .ok ⟨5, ds⟩) ∧ outcome.writer.text = "x\na\nb" := by
  let w := Writer.fresh .autoIndent
  have blanks : [' '].all Token.isIndent = true := rfl
  have blanks' : [].all Token.isIndent = true := rfl
  have lineFeed : ['\n'] = ['\n'] ∨ ['\n'] = ['\r', '\n'] := .inl rfl
  have first : compileChunks .dollar "page" ['x', '\n'] = ([.literal "x", .newline "\n"], []) := by
    cbv
  have inner : compileChunks .dollar "page" ['a', '\n'] = ([.literal "a", .newline "\n"], []) := by
    cbv
  have last : compileChunks .dollar "page" ['b'] = ([.literal "b"], []) := by cbv
  have condition : compileCondition .dollar "page" ['v'] = (.attribute "v", []) := by
    have scanned : Lexeme.scan .start ['v'] = .ok ⟨[⟨.name "v", ⟨1, 1⟩⟩], ⟨1, 2⟩⟩ := by cbv
    rw [compileCondition, Grammar.parseCondition, Grammar.parseAll, scanned]
    rfl
  have clean := congrArg Prod.snd first
  have clean' := congrArg Prod.snd inner
  have clean'' := congrArg Prod.snd last
  have readable := congrArg Prod.snd condition
  obtain ⟨block, shown, hidden, isBlock, isShown, -, alike⟩ :=
    block_leaves_no_trace (.inl rfl) (by decide) (by decide) clean clean' clean'' blanks blanks'
      lineFeed readable
  have middle := compileChunks_block (.inl rfl) blanks blanks' lineFeed readable (by decide) clean'
  have whole := compileChunks_between (.inl rfl) (by decide)
    (endsLine_block lineFeed (by decide) [' '] [] ['v']) clean (congrArg Prod.snd middle) clean''
  rw [middle, first, inner, last, condition] at whole
  obtain rfl : Block.page = block := by
    obtain ⟨-, rfl⟩ := Template.compile_eq_ok_iff.1 isBlock
    exact congrArg (fun compiled => Template.plain "page" compiled.1) whole.symm
  have closed : Block.shown.Closed IsInstance :=
    (Arena.closed_empty.instantiate _).setAttribute _ _ fun _ holds =>
      absurd holds (Value.not_holds_bool true)
  have ended : (Setting.standard.renderWithin 4 Block.shown ⟨0⟩ w).result = .ok ⟨5, []⟩ := by
    decide +kernel
  obtain ⟨t, v, u, decides, alike⟩ := alike closed (by decide) rfl ended
  rw [first, condition] at decides
  have computed : (Evaluator.ofDepth Setting.standard 3).Decides Setting.standard ⟨0⟩
      [.literal "x", .newline "\n"] (.attribute "v") ⟨Block.shown, [], w⟩ _ _ _ := ⟨⟨_, rfl⟩, rfl⟩
  obtain ⟨rfl, rfl, rfl⟩ := decides.unique computed
  have once : Setting.standard.WritesOnce 4 Block.shown ⟨0⟩ w :=
    ⟨by decide +kernel, by decide +kernel⟩
  have text : (Setting.standard.renderWithin 4 Block.shown ⟨0⟩ w).writer.text = "x\na\nb" := by
    decide +kernel
  obtain ⟨result, writer⟩ := alike (.inr ⟨once, .refl _ _⟩)
  exact ⟨_, isShown, result, (congrArg Writer.text writer).trans text⟩

/-! ## Lax renders -/

namespace Block

/-- `$a(v)$` and the end of the line -/
def callSource : List Char := ['$', 'a', '(', 'v', ')', '$', '\n']

def calling : Template :=
  .plain "main" [.expression (.call (.name "a") (.positional (.attribute "v"))) .none none,
    .newline "\n"]

def guarded (condition : Expr) : Template := .plain "main" [.conditional condition calling none]

theorem compileChunks_callSource :
    compileChunks .dollar "main" callSource = (calling.chunks, []) := by
  have call : Token.step .dollar .start '$' ['a', '(', 'v', ')', '$', '\n'] =
      .ok ⟨[.expr ['a', '(', 'v', ')'] none ⟨1, 2⟩], ⟨1, 7⟩, ['\n']⟩ := by
    cbv
  have line : Token.step .dollar ⟨1, 7⟩ '\n' [] = .ok ⟨[.newline ['\n']], ⟨2, 1⟩, []⟩ := by
    cbv
  have split : Token.ofSource .dollar callSource =
      .ok [.expr ['a', '(', 'v', ')'] none ⟨1, 2⟩, .newline ['\n']] := by
    rw [Token.ofSource, callSource, Token.pieces_of_step call, Token.pieces_of_step line,
      Token.pieces]
    rfl
  have scanned : Lexeme.scan ⟨1, 2⟩ ['a', '(', 'v', ')'] = .ok ⟨[⟨.name "a", ⟨1, 2⟩⟩,
      ⟨.mark .leftParen, ⟨1, 3⟩⟩, ⟨.name "v", ⟨1, 4⟩⟩, ⟨.mark .rightParen, ⟨1, 5⟩⟩], ⟨1, 6⟩⟩ := by
    cbv
  have parsed : Grammar.parseAction ⟨"main", compileChunks .dollar⟩ ⟨1, 2⟩ ['a', '(', 'v', ')'] =
      ((.call (.name "a") (.positional (.attribute "v")), .none), []) := by
    rw [Grammar.parseAction, Grammar.parseAll, scanned]
    rfl
  have assembled : Assembly.ofTokens ⟨"main", compileChunks .dollar⟩
      [.expr ['a', '(', 'v', ')'] none ⟨1, 2⟩, .newline ['\n']] = (calling.chunks, []) := by
    simp only [Assembly.ofTokens, List.foldl, Assembly.addToken, parsed]
    rfl
  obtain ⟨same, clean⟩ := compileChunks_eq split "main"
  rw [assembled] at same clean
  exact Prod.ext same (clean.2 rfl)

theorem compile_callSource : Template.compile .dollar "main" (.ofList callSource) = .ok calling :=
  Template.compile_eq_ok_iff.2
    ⟨congrArg Prod.snd compileChunks_callSource, by rw [compileChunks_callSource]; rfl⟩

theorem compile_guarded {condition : List Char} {e : Expr}
    (parsed : compileCondition .dollar "main" condition = (e, [])) :
    Template.compile .dollar "main"
      (.ofList (Delimiters.dollar.block [] [] ['\n'] condition callSource)) = .ok (guarded e) := by
  have blanks : [].all Token.isIndent = true := rfl
  have block := compileChunks_block (.inl rfl) blanks blanks (.inl rfl)
    (congrArg Prod.snd parsed) (by decide) (congrArg Prod.snd compileChunks_callSource)
  rw [parsed, compileChunks_callSource] at block
  exact Template.compile_eq_ok_iff.2 ⟨congrArg Prod.snd block, by rw [block]; rfl⟩

/-- A group with a template `a`, for which its own templates find another one, and with a template
`t` that nobody else finds. -/
def shadowing : Group :=
  let listing : Template :=
    .plain "a" [.expression (.attribute "x") ⟨some (.text ","), none, none⟩ none]
  (((Group.empty "g" .dollar).insert (listing.withFormals ["x"])).insert
    ((Template.plain "g.a" []).withFormals ["x"])).insert (.plain "g.t" [])

def shadowed : Setting :=
  { Setting.standard with registry := (Library.empty.add shadowing).2.groupRegistry ⟨0⟩ }

/-- As the root, the line is rendered to the first text inside a block with the condition, which
holds there, and to the second one by itself. -/
def Differs (place : Template → Arena) (root : Handle) (condition : List Char)
    (blocked alone : String) : Prop :=
  ∃ block e v u,
    Template.compile .dollar "main"
      (.ofList (Delimiters.dollar.block [] [] ['\n'] condition callSource)) = .ok block ∧
    Template.compile .dollar "main" (.ofList callSource) = .ok calling ∧
    compileCondition .dollar "main" condition = (e, []) ∧
    (Evaluator.ofDepth shadowed 4).eval root e ⟨place block, [], .fresh .autoIndent⟩ = .ok v u ∧
    v.truthy = true ∧
    let whole := shadowed.renderToText (place block) root
    let line := shadowed.renderToText ((place block).recast root calling.chunks) root
    (∃ ds, whole.result = .ok ⟨blocked.length, ds⟩) ∧ whole.writer.text = blocked ∧
      (∃ ds, line.result = .ok ⟨alone.length, ds⟩) ∧ line.writer.text = alone

/-- An instance that its own `v` encloses, which one of the group encloses. -/
def enclosed (t : Template) : Arena :=
  let outer := Arena.empty.instantiate ((Template.plain "y" []).inGroup "g")
  let inner := outer.2.embed outer.1 (.plain "x" [.literal "x"])
  let main := inner.2.embed inner.1 t
  main.2.setAttribute main.1 "v" (.template inner.1)

/-- Making a text of `v` links it to the instance that it encloses. Behind that the instance is not
found to be in the group any more, where `a` means something else. -/
theorem relinking_differs : Differs enclosed ⟨2⟩ ['(', 'v', ')'] "x\n" "\n" := by
  have parsed : compileCondition .dollar "main" ['(', 'v', ')'] =
      (.rendered (.attribute "v"), []) := by
    have scanned : Lexeme.scan .start ['(', 'v', ')'] = .ok ⟨[⟨.mark .leftParen, ⟨1, 1⟩⟩,
        ⟨.name "v", ⟨1, 2⟩⟩, ⟨.mark .rightParen, ⟨1, 3⟩⟩], ⟨1, 4⟩⟩ := by
      cbv
    rw [compileCondition, Grammar.parseCondition, Grammar.parseAll, scanned]
    rfl
  refine ⟨_, _, .text "x", _, compile_guarded parsed, compile_callSource, parsed, rfl, rfl,
    ⟨[], ?_⟩, ?_, ⟨[], ?_⟩, ?_⟩ <;> decide +kernel

/-- An instance that is among the elements of its own `v`. -/
def itself (t : Template) : Arena :=
  let main := Arena.empty.instantiate t
  main.2.setAttribute main.1 "v" (.list [.template main.1, .text "z"])

/-- The root is written again where `t` is found and the condition does not hold. A block writes
nothing then and no separator follows it, and the line by itself still ends. -/
theorem rewriting_differs : Differs itself ⟨0⟩ ['!', 't', '(', ')'] "z\n" "\n,z\n" := by
  have parsed : compileCondition .dollar "main" ['!', 't', '(', ')'] =
      (.not (.call (.name "t") .none), []) := by
    have scanned : Lexeme.scan .start ['!', 't', '(', ')'] = .ok ⟨[⟨.mark .bang, ⟨1, 1⟩⟩,
        ⟨.name "t", ⟨1, 2⟩⟩, ⟨.mark .leftParen, ⟨1, 3⟩⟩, ⟨.mark .rightParen, ⟨1, 4⟩⟩], ⟨1, 5⟩⟩ := by
      cbv
    rw [compileCondition, Grammar.parseCondition, Grammar.parseAll, scanned]
    rfl
  refine ⟨_, _, .bool true, _, compile_guarded parsed, compile_callSource, parsed, rfl, rfl,
    ⟨[.templateNotFound "t"], ?_⟩, ?_, ⟨[], ?_⟩, ?_⟩ <;> decide +kernel

end Block

/-- A lax render tells a block from its body where evaluating the condition changes the links around
the root, and where the root is written again. -/
theorem lax_blocks_differ :
    Block.Differs Block.enclosed ⟨2⟩ ['(', 'v', ')'] "x\n" "\n" ∧
      Block.Differs Block.itself ⟨0⟩ ['!', 't', '(', ')'] "z\n" "\n,z\n" :=
  ⟨Block.relinking_differs, Block.rewriting_differs⟩

end Stencil
