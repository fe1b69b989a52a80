import Stencil.Proofs.Parallel.Grammar
import Stencil.Template.Compile
/-!
# Assemblies in parallel

The same tokens, wherever they stand, make up the same chunks up to the names in them. So the name
that a source compiles under shows in the names of its templates and nowhere else.
-/
namespace Stencil

open Text (Position)

def Arm.rename (f : String → String) (arm : Arm) : Arm :=
  ⟨arm.condition.rename f, arm.body.map (Chunk.rename f)⟩

def OpenBranch.rename (f : String → String) : OpenBranch → OpenBranch
  | .arm before condition => .arm (before.map (Arm.rename f)) (condition.rename f)
  | .otherwise first more => .otherwise (first.rename f) (more.map (Arm.rename f))

/-- Changes the names of all templates and forgets the place. -/
def OpenConditional.rename (f : String → String) (c : OpenConditional) : OpenConditional :=
  ⟨c.branch.rename f, c.body.map (Chunk.rename f), .start⟩

/-- A token without the place that it stands at. -/
def Token.unplaced : Token → Token
  | .text s => .text s
  | .newline s => .newline s
  | .expr source indent? _ => .expr source indent? .start
  | .ifMark condition offset _ => .ifMark condition offset .start
  | .elseifMark condition offset _ => .elseifMark condition offset .start
  | .elseMark _ => .elseMark .start
  | .endifMark _ => .endifMark .start

/-- All inline templates in a token fit. -/
def Token.InlinesFit (fits : List Char → Prop) : Token → Prop
  | .expr source _ _ => Lexeme.InlinesFit fits source
  | .ifMark condition _ _ => Lexeme.InlinesFit fits condition
  | .elseifMark condition _ _ => Lexeme.InlinesFit fits condition
  | _ => True

namespace Assembly

variable {f : String → String} {fits : List Char → Prop} {ctx ctx' : ParseContext}
  {a b : Assembly}

/-- Both have the same chunks up to the names in them, and both have met errors or neither has. -/
structure Parallel (f : String → String) (a b : Assembly) : Prop where
  chunks : a.chunks.map (Chunk.rename f) = b.chunks.map (Chunk.rename f)
  conditionals : a.conditionals.map (OpenConditional.rename f) =
    b.conditionals.map (OpenConditional.rename f)
  clean : a.errors = [] ↔ b.errors = []

theorem rename_plain (f : String → String) (name : String) (chunks : List Chunk) :
    (Template.plain name chunks).rename f = .plain (f name) (chunks.map (Chunk.rename f)) :=
  Template.rename_eq f _

theorem map_rename_appendText (f : String → String) (chunks : List Chunk) (s : String) :
    (appendText chunks s).map (Chunk.rename f) = appendText (chunks.map (Chunk.rename f)) s := by
  rcases List.eq_nil_or_concat chunks with rfl | ⟨shorter, last, rfl⟩
  · rfl
  · cases last <;> simp [appendText, Chunk.rename]

theorem rename_conditional (f : String → String) (name : String) (first : Arm)
    (otherwise : Option Template) (more : List Arm) :
    (conditional name first otherwise more).rename f =
      conditional (f name) (first.rename f) (Template.renameOptional f otherwise)
        (more.map (Arm.rename f)) := by
  induction more generalizing first with
  | nil => rw [conditional, Chunk.rename, rename_plain]; rfl
  | cons next more ih =>
    rw [conditional, Chunk.rename, rename_plain, Template.renameOptional, rename_plain,
      List.map_singleton, ih]
    rfl

theorem rename_closed (f : String → String) (name : String) (c : OpenConditional) :
    (closed name c).rename f = closed (f name) (c.rename f) := by
  obtain ⟨branch, body, pos⟩ := c
  cases branch with
  | arm before condition =>
    cases before with
    | nil => exact rename_conditional f name _ none []
    | cons first more =>
      refine (rename_conditional f name _ none _).trans ?_
      rw [List.map_append]
      rfl
  | otherwise first more =>
    refine (rename_conditional f name first _ more).trans ?_
    rw [Template.renameOptional, rename_plain]
    rfl

namespace Parallel

theorem modifyInnermost {g g' : List Chunk → List Chunk}
    (same : ∀ chunks chunks', chunks.map (Chunk.rename f) = chunks'.map (Chunk.rename f) →
      (g chunks).map (Chunk.rename f) = (g' chunks').map (Chunk.rename f))
    (parallel : Parallel f a b) : Parallel f (a.modifyInnermost g) (b.modifyInnermost g') := by
  obtain ⟨chunks, conditionals, clean⟩ := parallel
  obtain ⟨outside, _ | ⟨c, outer⟩, errors⟩ := a
  all_goals obtain ⟨outside', _ | ⟨c', outer'⟩, errors'⟩ := b
  · exact ⟨same _ _ chunks, rfl, clean⟩
  · cases conditionals
  · cases conditionals
  · obtain ⟨here, others⟩ := List.cons.inj conditionals
    obtain ⟨branch, body, -⟩ := OpenConditional.mk.inj here
    refine ⟨chunks, ?_, clean⟩
    unfold Assembly.modifyInnermost
    dsimp only
    rw [List.map_cons, List.map_cons, others, OpenConditional.rename, OpenConditional.rename,
      branch, same _ _ body]

theorem addText (parallel : Parallel f a b) (s : String) :
    Parallel f (a.addText s) (b.addText s) :=
  parallel.modifyInnermost fun chunks chunks' same => by
    rw [map_rename_appendText, map_rename_appendText, same]

theorem addChunk (parallel : Parallel f a b) {chunk chunk' : Chunk}
    (alike : chunk.rename f = chunk'.rename f) :
    Parallel f (a.addChunk chunk) (b.addChunk chunk') :=
  parallel.modifyInnermost fun chunks chunks' same => by
    rw [List.map_append, List.map_append, same, List.map_singleton, List.map_singleton, alike]

theorem addErrors (parallel : Parallel f a b) {errors errors' : List TemplateError}
    (clean : errors = [] ↔ errors' = []) :
    Parallel f (a.addErrors errors) (b.addErrors errors') where
  chunks := parallel.chunks
  conditionals := parallel.conditionals
  clean := by
    simp only [Assembly.addErrors, List.append_eq_nil_iff]
    rw [parallel.clean, clean]

theorem report (parallel : Parallel f a b) (pos pos' : Position)
    (problem problem' : SourceProblem) :
    Parallel f (a.report pos problem) (b.report pos' problem') :=
  parallel.addErrors (by simp)

theorem openConditional (parallel : Parallel f a b) {condition condition' : Expr}
    (alike : condition.Alike f condition') (pos pos' : Position) :
    Parallel f { a with conditionals := ⟨.arm [] condition, [], pos⟩ :: a.conditionals }
      { b with conditionals := ⟨.arm [] condition', [], pos'⟩ :: b.conditionals } where
  chunks := parallel.chunks
  conditionals := by
    have opened : OpenConditional.rename f ⟨.arm [] condition, [], pos⟩ =
        .rename f ⟨.arm [] condition', [], pos'⟩ :=
      congrArg (fun condition => OpenConditional.mk (.arm [] condition) [] .start) alike
    rw [List.map_cons, List.map_cons, opened, parallel.conditionals]
  clean := parallel.clean

theorem closeInnermost {name name' : String} (names : f name = f name')
    (parallel : Parallel f a b) :
    Parallel f (a.closeInnermost name) (b.closeInnermost name') := by
  obtain ⟨chunks, conditionals, clean⟩ := parallel
  obtain ⟨outside, _ | ⟨c, outer⟩, errors⟩ := a
  all_goals obtain ⟨outside', _ | ⟨c', outer'⟩, errors'⟩ := b
  · exact ⟨chunks, rfl, clean⟩
  · cases conditionals
  · cases conditionals
  · obtain ⟨here, others⟩ := List.cons.inj conditionals
    have enclosing : Parallel f ⟨outside, outer, errors⟩ ⟨outside', outer', errors'⟩ :=
      ⟨chunks, others, clean⟩
    exact enclosing.addChunk (by rw [rename_closed, rename_closed, here, names])

theorem nextBranch (parallel : Parallel f a b) (pos pos' : Position) (marker : InnerMarker)
    {next next' : List Arm → Arm → OpenBranch}
    (same : ∀ before before' last last',
      before.map (Arm.rename f) = before'.map (Arm.rename f) → last.rename f = last'.rename f →
        (next before last).rename f = (next' before' last').rename f) :
    Parallel f (a.nextBranch pos marker next) (b.nextBranch pos' marker next') := by
  have both := parallel
  obtain ⟨chunks, conditionals, clean⟩ := parallel
  obtain ⟨outside, _ | ⟨⟨branch, body, opened⟩, outer⟩, errors⟩ := a
  all_goals obtain ⟨outside', _ | ⟨⟨branch', body', opened'⟩, outer'⟩, errors'⟩ := b
  · exact both.report _ _ _ _
  · cases conditionals
  · cases conditionals
  · obtain ⟨here, others⟩ := List.cons.inj conditionals
    obtain ⟨branches, bodies, -⟩ := OpenConditional.mk.inj here
    cases branch with
    | otherwise first more =>
      cases branch' with
      | otherwise first' more' => exact both.report _ _ _ _
      | arm before' condition' => cases branches
    | arm before condition =>
      cases branch' with
      | otherwise first' more' => cases branches
      | arm before' condition' =>
        obtain ⟨arms, conditions⟩ := OpenBranch.arm.inj branches
        have last : Arm.rename f ⟨condition, body⟩ = .rename f ⟨condition', body'⟩ := by
          rw [Arm.rename, Arm.rename, conditions]
          exact congrArg (Arm.mk _) bodies
        refine ⟨chunks, ?_, clean⟩
        unfold Assembly.nextBranch
        dsimp only
        rw [List.map_cons, List.map_cons, others, OpenConditional.rename, OpenConditional.rename,
          same _ _ _ _ arms last]

theorem addToken (contexts : ctx.Parallel f fits ctx') (owners : f ctx.owner = f ctx'.owner)
    {token token' : Token} (moved : token.unplaced = token'.unplaced)
    (fitting : token.InlinesFit fits) (parallel : Parallel f a b) :
    Parallel f (a.addToken ctx token) (b.addToken ctx' token') := by
  cases token with
  | text s =>
    cases token' with
    | text s' =>
      cases moved
      exact parallel.addText _
    | _ => cases moved
  | newline s =>
    cases token' with
    | newline s' =>
      cases moved
      exact parallel.addChunk rfl
    | _ => cases moved
  | expr source indent? pos =>
    cases token' with
    | expr source' indent?' pos' =>
      obtain ⟨rfl, rfl, -⟩ := Token.expr.inj moved
      obtain ⟨⟨expr, options⟩, clean⟩ :=
        Grammar.parallel_parseAction contexts pos pos' fitting
      refine (parallel.addErrors clean).addChunk ?_
      rw [Chunk.rename, Chunk.rename]
      exact Chunk.expression.injEq .. ▸ ⟨expr, options, rfl⟩
    | _ => cases moved
  | ifMark source offset pos =>
    cases token' with
    | ifMark source' offset' pos' =>
      obtain ⟨rfl, rfl, -⟩ := Token.ifMark.inj moved
      obtain ⟨condition, clean⟩ := Grammar.parallel_parseCondition contexts (pos.right offset)
        (pos'.right offset) fitting
      exact (parallel.addErrors clean).openConditional condition pos pos'
    | _ => cases moved
  | elseifMark source offset pos =>
    cases token' with
    | elseifMark source' offset' pos' =>
      obtain ⟨rfl, rfl, -⟩ := Token.elseifMark.inj moved
      obtain ⟨condition, clean⟩ := Grammar.parallel_parseCondition contexts (pos.right offset)
        (pos'.right offset) fitting
      have next (before before' : List Arm) (last last' : Arm)
          (arms : before.map (Arm.rename f) = before'.map (Arm.rename f))
          (lasts : last.rename f = last'.rename f) :
          OpenBranch.rename f (.arm (before ++ [last])
              (Grammar.parseCondition ctx (pos.right offset) source).1) =
            .rename f (.arm (before' ++ [last'])
              (Grammar.parseCondition ctx' (pos'.right offset) source).1) := by
        simp only [OpenBranch.rename, List.map_append, List.map_singleton, arms, lasts]
        exact congrArg (OpenBranch.arm _) condition
      exact (parallel.addErrors clean).nextBranch pos pos' .elseif next
    | _ => cases moved
  | elseMark pos =>
    cases token' with
    | elseMark pos' =>
      refine parallel.nextBranch pos pos' .otherwise ?_
      intro before before' last last' arms lasts
      rcases before with _ | ⟨first, more⟩
      all_goals rcases before' with _ | ⟨first', more'⟩
      · exact congrArg (OpenBranch.otherwise · []) lasts
      · cases arms
      · cases arms
      · obtain ⟨firsts, others⟩ := List.cons.inj arms
        simp only [otherwiseAfter, OpenBranch.rename, List.map_append, List.map_singleton, firsts,
          others, lasts]
    | _ => cases moved
  | endifMark pos =>
    cases token' with
    | endifMark pos' =>
      have conditionals := parallel.conditionals
      obtain ⟨outside, _ | ⟨c, outer⟩, errors⟩ := a
      all_goals obtain ⟨outside', _ | ⟨c', outer'⟩, errors'⟩ := b
      · exact parallel.report pos pos' _ _
      · cases conditionals
      · cases conditionals
      · exact parallel.closeInnermost owners
    | _ => cases moved

theorem foldl (contexts : ctx.Parallel f fits ctx') (owners : f ctx.owner = f ctx'.owner)
    {tokens tokens' : List Token} (moved : tokens.map Token.unplaced = tokens'.map Token.unplaced)
    (fitting : ∀ token ∈ tokens, token.InlinesFit fits) (parallel : Parallel f a b) :
    Parallel f (tokens.foldl (Assembly.addToken ctx) a)
      (tokens'.foldl (Assembly.addToken ctx') b) := by
  induction tokens generalizing tokens' a b with
  | nil =>
    obtain rfl := List.map_eq_nil_iff.1 moved.symm
    exact parallel
  | cons token tokens ih =>
    rcases tokens' with _ | ⟨token', tokens'⟩
    · cases moved
    · obtain ⟨here, others⟩ := List.cons.inj moved
      obtain ⟨fits, fitting⟩ := List.forall_mem_cons.1 fitting
      rw [List.foldl_cons, List.foldl_cons]
      exact ih others fitting (parallel.addToken contexts owners here fits)

theorem closeAll {name name' : String} (names : f name = f name')
    {open_ open_' : List OpenConditional} (same : open_.length = open_'.length)
    (parallel : Parallel f a b) :
    Parallel f (Assembly.closeAll name open_ a) (Assembly.closeAll name' open_' b) := by
  induction open_ generalizing open_' a b with
  | nil =>
    obtain rfl := List.eq_nil_of_length_eq_zero same.symm
    exact parallel
  | cons c outer ih =>
    rcases open_' with _ | ⟨c', outer'⟩
    · cases same
    · rw [Assembly.closeAll, Assembly.closeAll]
      exact ih (Nat.succ.inj same) ((parallel.report c.pos c'.pos _ _).closeInnermost names)

end Parallel

theorem parallel_ofTokens (contexts : ctx.Parallel f fits ctx')
    (owners : f ctx.owner = f ctx'.owner) {tokens tokens' : List Token}
    (moved : tokens.map Token.unplaced = tokens'.map Token.unplaced)
    (fitting : ∀ token ∈ tokens, token.InlinesFit fits) :
    (ofTokens ctx tokens).1.map (Chunk.rename f) = (ofTokens ctx' tokens').1.map (Chunk.rename f) ∧
      ((ofTokens ctx tokens).2 = [] ↔ (ofTokens ctx' tokens').2 = []) := by
  have folded : Parallel f (tokens.foldl (addToken ctx) empty)
      (tokens'.foldl (addToken ctx') empty) :=
    Parallel.foldl contexts owners moved fitting ⟨rfl, rfl, Iff.rfl⟩
  have length : (tokens.foldl (addToken ctx) empty).conditionals.length =
      (tokens'.foldl (addToken ctx') empty).conditionals.length := by
    simpa using congrArg List.length folded.conditionals
  have finished := folded.closeAll owners length
  exact ⟨finished.chunks, finished.clean⟩

end Assembly

section Naming

variable {d : Delimiters} {name : String} {source : List Char}

theorem compileChunks_of_error {e : TemplateError} (broken : Token.ofSource d source = .error e) :
    compileChunks d name source = ([], [e]) := by
  rw [compileChunks, broken]

theorem compileChunks_of_ok {tokens : List Token} (split : Token.ofSource d source = .ok tokens) :
    compileChunks d name source = Assembly.ofTokens ⟨name, fun name body =>
      if body.length < source.length then compileChunks d name body else ([], [])⟩ tokens := by
  rw [compileChunks, split]
  rfl

/-- No name is told from any other. -/
def unnamed (_ : String) : String := ""

/-- A source compiles to the same chunks under every name, up to the names derived from it. -/
theorem compileChunks_alike (d : Delimiters) (name name' : String) (source : List Char) :
    (compileChunks d name source).1.map (Chunk.rename unnamed) =
        (compileChunks d name' source).1.map (Chunk.rename unnamed) ∧
      ((compileChunks d name source).2 = [] ↔ (compileChunks d name' source).2 = []) := by
  induction length : source.length using Nat.strongRecOn generalizing source name name' with
  | _ n ih =>
    cases split : Token.ofSource d source with
    | error e =>
      rw [compileChunks_of_error split, compileChunks_of_error split]
      exact ⟨rfl, Iff.rfl⟩
    | ok tokens =>
      rw [compileChunks_of_ok split, compileChunks_of_ok split]
      have fitting (token : Token) : token.InlinesFit fun _ => True := by
        cases token <;> first | trivial | exact fun _ _ _ _ _ => trivial
      let inside (name : String) (body : List Char) : List Chunk × List TemplateError :=
        if body.length < source.length then compileChunks d name body else ([], [])
      have alike (name name' : String) (body : List Char) :
          (inside name body).1.map (Chunk.rename unnamed) =
              (inside name' body).1.map (Chunk.rename unnamed) ∧
            ((inside name body).2 = [] ↔ (inside name' body).2 = []) := by
        dsimp only [inside]
        split
        · rename_i shorter
          exact ih _ (length ▸ shorter) _ _ _ rfl
        · exact ⟨rfl, Iff.rfl⟩
      have contexts : ParseContext.Parallel unnamed (fun _ => True) ⟨name, inside⟩
          ⟨name', inside⟩ :=
        ⟨fun _ => rfl, fun _ _ _ => (alike _ _ _).1, fun _ _ _ => (alike _ _ _).2⟩
      exact Assembly.parallel_ofTokens contexts rfl rfl fun token _ => fitting token

end Naming

end Stencil
