import Stencil.Proofs.Grammar.Traits
import Stencil.Proofs.Output.Layers
import Stencil.Proofs.Scanning.Lines
import Stencil.Template.Compile
/-!
# Traits of compiled templates

Chunks are put together one token at a time. A trait that a list of chunks keeps with each of them,
and that a conditional takes over from its parts, is a trait of all that a source compiles to. The
lexer gives out no empty text, and takes an indentation from the spaces and tabs at the start of a
line.
-/
namespace Stencil

open Text (Position)

/-! ## Tokens -/

namespace Token

theorem ne_nil_of_mem_joinTexts {tokens : List Token} {s : List Char}
    (member : .text s ∈ joinTexts tokens) : s ≠ [] := by
  have consText (front : List Char) {tokens : List Token}
      (nonempty : ∀ s, .text s ∈ tokens → s ≠ []) :
      ∀ s, .text s ∈ consText front tokens → s ≠ [] := by
    unfold Token.consText
    intro s member
    split at member
    · rename_i t rest
      rcases List.mem_cons.1 member with same | later
      · cases same
        exact List.append_ne_nil_of_right_ne_nil _ (nonempty t List.mem_cons_self)
      · exact nonempty s (List.mem_cons_of_mem _ later)
    · split at member
      · exact nonempty s member
      · rename_i given
        rcases List.mem_cons.1 member with same | later
        · cases same
          exact given
        · exact nonempty s later
  fun_induction joinTexts tokens generalizing s with
  | case1 => cases member
  | case2 front rest ih => exact consText front (fun s => ih) s member
  | case3 token rest notText ih =>
    rcases List.mem_cons.1 member with same | later
    · exact absurd same.symm (notText s)
    · exact ih later

/-- The indentation that is kept for a chunk stays on its line. -/
def KeepsLine : Token → Prop
  | .expr _ indent? _ => ∀ indent ∈ indent?, Unbroken (String.ofList indent)
  | _ => True

theorem unbroken_of_indentation? {d : Delimiters} {s indent body : List Char}
    (found : indentation? d s = some (indent, body)) : Unbroken (String.ofList indent) := by
  obtain ⟨-, -, blanks, -⟩ := indentation?_eq_some_iff.1 found
  intro c member
  rw [String.toList_ofList] at member
  have blank : isIndent c = true := List.all_eq_true.1 blanks c member
  constructor
  · rintro rfl
    exact absurd blank (by decide)
  · rintro rfl
    exact absurd blank (by decide)

theorem keepsLine_of_marker? {source : List Char} {pos : Position} {marker : Token}
    (found : marker? source pos = some marker) : marker.KeepsLine := by
  cases marked_of_marker? found <;> trivial

theorem keepsLine_chunk {d : Delimiters} {opening : Position} {indent? : Option (List Char)}
    {body : List Char} {r : Step} (given : ∀ indent ∈ indent?, Unbroken (String.ofList indent))
    (ran : chunk d opening indent? body = .ok r) : ∀ token ∈ r.tokens, token.KeepsLine := by
  have texts : ∀ token ∈ indentText indent?, token.KeepsLine := by
    cases indent? with
    | none => exact List.forall_mem_nil _
    | some indent => exact List.forall_mem_singleton.2 trivial
  cases chunk_ok_iff.1 ran with
  | line _ found => exact List.forall_mem_singleton.2 (keepsLine_of_marker? found)
  | last _ found => exact List.forall_mem_singleton.2 (keepsLine_of_marker? found)
  | marker _ found =>
    exact List.forall_mem_append.2
      ⟨texts, List.forall_mem_singleton.2 (keepsLine_of_marker? found)⟩
  | escape => exact List.forall_mem_append.2 ⟨texts, List.forall_mem_singleton.2 trivial⟩
  | expression => exact List.forall_mem_singleton.2 given

theorem keepsLine_step {d : Delimiters} {pos : Position} {c : Char} {s : List Char} {r : Step}
    (ran : step d pos c s = .ok r) : ∀ token ∈ r.tokens, token.KeepsLine := by
  cases step_ok_iff.1 ran with
  | newline => exact List.forall_mem_singleton.2 trivial
  | indented _ _ found _ read =>
    refine keepsLine_chunk (fun indent given => ?_) read
    cases given
    exact unbroken_of_indentation? found
  | escape => exact List.forall_mem_singleton.2 trivial
  | text => exact List.forall_mem_singleton.2 trivial
  | comment => exact List.forall_mem_nil _
  | chunk _ _ _ _ read =>
    refine keepsLine_chunk ?_ read
    nofun

theorem keepsLine_pieces {d : Delimiters} {pos : Position} {s : List Char} {tokens : List Token}
    (read : pieces d pos s = .ok tokens) : ∀ token ∈ tokens, token.KeepsLine := by
  induction pieced_of_pieces read with
  | nil => exact List.forall_mem_nil _
  | cons taken others _ ih => exact List.forall_mem_append.2 ⟨keepsLine_step taken, ih others⟩

theorem keepsLine_ofSource {d : Delimiters} {source : List Char} {tokens : List Token}
    (read : ofSource d source = .ok tokens) : ∀ token ∈ tokens, token.KeepsLine := by
  obtain ⟨pieced, raw, rfl⟩ := ofSource_eq_ok_iff.1 read
  exact forall_joinTexts (fun _ => trivial) (keepsLine_pieces raw)

end Token

/-! ## Chunks -/

/-- Chunks keep the trait with each that is put behind them, and take it over from its parts. -/
structure Traits.Kept (T : Traits) : Prop extends T.Expressed where
  nil (name : String) : T.chunks name []
  literal {name s : String} {chunks : List Chunk} : T.chunks name chunks → s ≠ "" →
    T.chunks name (Assembly.appendText chunks s)
  newline {name : String} {chunks : List Chunk} (s : String) : T.chunks name chunks →
    T.chunks name (chunks ++ [.newline s])
  expression {name : String} {chunks : List Chunk} {e : Expr} {options : ExprOptions}
    {indent? : Option String} : T.chunks name chunks → T.expr e → T.options options →
    (∀ indent ∈ indent?, Unbroken indent) →
    T.chunks name (chunks ++ [.expression e options indent?])
  conditional {name : String} {chunks body : List Chunk} {condition : Expr}
    {otherwise : Option Template} : T.chunks name chunks → T.expr condition → T.chunks name body →
    (∀ t ∈ otherwise, ∃ body, t = .plain name body ∧ T.chunks name body) →
    T.chunks name (chunks ++ [.conditional condition (.plain name body) otherwise])

variable {T : Traits}

structure Arm.Has (T : Traits) (name : String) (arm : Arm) : Prop where
  condition : T.expr arm.condition
  body : T.chunks name arm.body

def OpenBranch.Has (T : Traits) (name : String) : OpenBranch → Prop
  | .arm before condition => (∀ arm ∈ before, arm.Has T name) ∧ T.expr condition
  | .otherwise first more => ∀ arm ∈ first :: more, arm.Has T name

structure OpenConditional.Has (T : Traits) (name : String) (c : OpenConditional) : Prop where
  branch : c.branch.Has T name
  body : T.chunks name c.body

namespace Assembly

/-- All that has been put together has the trait. -/
structure Has (T : Traits) (name : String) (a : Assembly) : Prop where
  chunks : T.chunks name a.chunks
  conditionals : ∀ c ∈ a.conditionals, c.Has T name

/-- The trait is kept with the chunk behind. -/
def Joins (T : Traits) (name : String) (chunk : Chunk) : Prop :=
  ∀ chunks, T.chunks name chunks → T.chunks name (chunks ++ [chunk])

variable {name : String} {a : Assembly}

theorem has_modifyInnermost {f : List Chunk → List Chunk} (has : a.Has T name)
    (keeps : ∀ chunks, T.chunks name chunks → T.chunks name (f chunks)) :
    (a.modifyInnermost f).Has T name := by
  obtain ⟨chunks, _ | ⟨c, outer⟩, errors⟩ := a
  · exact ⟨keeps _ has.chunks, has.conditionals⟩
  · obtain ⟨first, others⟩ := List.forall_mem_cons.1 has.conditionals
    exact ⟨has.chunks, List.forall_mem_cons.2 ⟨⟨first.branch, keeps _ first.body⟩, others⟩⟩

theorem has_addErrors (errors : List TemplateError) (has : a.Has T name) :
    (a.addErrors errors).Has T name :=
  ⟨has.chunks, has.conditionals⟩

section

variable (kept : T.Kept)
include kept

/-- The arms behind the first are nested, each in the else branch of the one before. -/
theorem joins_conditional {first : Arm} {otherwise : Option Template} {more : List Arm}
    (has : first.Has T name)
    (last : ∀ t ∈ otherwise, ∃ body, t = .plain name body ∧ T.chunks name body)
    (others : ∀ arm ∈ more, arm.Has T name) :
    Joins T name (conditional name first otherwise more) := by
  induction more generalizing first with
  | nil => exact fun chunks given => kept.conditional given has.condition has.body last
  | cons next more ih =>
    obtain ⟨next, others⟩ := List.forall_mem_cons.1 others
    refine fun chunks given => kept.conditional given has.condition has.body ?_
    rintro _ ⟨⟩
    exact ⟨_, rfl, ih next others [] (kept.nil name)⟩

theorem joins_closed {c : OpenConditional} (has : c.Has T name) :
    Joins T name (closed name c) := by
  obtain ⟨_ | _, body, pos⟩ := c
  · rename_i before condition
    obtain ⟨arms, holds⟩ := has.branch
    have last : Arm.Has T name ⟨condition, body⟩ := ⟨holds, has.body⟩
    cases before with
    | nil => exact joins_conditional kept last nofun (List.forall_mem_nil _)
    | cons first more =>
      obtain ⟨first, more⟩ := List.forall_mem_cons.1 arms
      refine joins_conditional kept first nofun ?_
      exact List.forall_mem_append.2 ⟨more, List.forall_mem_singleton.2 last⟩
  · obtain ⟨first, more⟩ := List.forall_mem_cons.1 has.branch
    refine joins_conditional kept first ?_ more
    rintro _ ⟨⟩
    exact ⟨_, rfl, has.body⟩

theorem has_nextBranch {pos : Position} {marker : InnerMarker} {next : List Arm → Arm → OpenBranch}
    (has : a.Has T name)
    (follows : ∀ before last, (∀ arm ∈ before, arm.Has T name) → last.Has T name →
      (next before last).Has T name) : (a.nextBranch pos marker next).Has T name := by
  unfold nextBranch
  split
  · exact has_addErrors _ has
  · rename_i c outer conditionals
    split
    · exact has_addErrors _ has
    · rename_i before condition branch
      have inside := has.conditionals
      rw [conditionals] at inside
      obtain ⟨first, others⟩ := List.forall_mem_cons.1 inside
      obtain ⟨arms, holds⟩ : OpenBranch.Has T name (.arm before condition) := branch ▸ first.branch
      refine ⟨has.chunks, List.forall_mem_cons.2 ⟨⟨?_, kept.nil name⟩, others⟩⟩
      exact follows _ _ arms ⟨holds, first.body⟩

theorem has_closeInnermost (has : a.Has T name) : (a.closeInnermost name).Has T name := by
  unfold closeInnermost
  split
  · exact has
  · rename_i c outer conditionals
    have inside := has.conditionals
    rw [conditionals] at inside
    obtain ⟨first, others⟩ := List.forall_mem_cons.1 inside
    exact has_modifyInnermost ⟨has.chunks, others⟩ (joins_closed kept first)

/-- A token adds chunks that the trait is kept with. -/
theorem has_addToken {ctx : ParseContext} (compiles : ctx.Has T) (has : a.Has T ctx.owner)
    {token : Token} (keepsLine : token.KeepsLine) (nonempty : ∀ s, token = .text s → s ≠ []) :
    (a.addToken ctx token).Has T ctx.owner := by
  have takes := kept.toExpressed
  cases token with
  | text s =>
    refine has_modifyInnermost has fun chunks given => kept.literal given fun none => ?_
    exact nonempty s rfl (String.ofList_eq_empty_iff.1 none)
  | newline s => exact has_modifyInnermost has fun chunks given => kept.newline _ given
  | expr source indent? pos =>
    obtain ⟨e, options⟩ := Grammar.has_parseAction takes compiles pos source
    refine has_modifyInnermost (has_addErrors _ has) fun chunks given =>
      kept.expression given e options fun indent member => ?_
    obtain ⟨indent, given, rfl⟩ := Option.map_eq_some_iff.1 member
    exact keepsLine indent given
  | ifMark source offset pos =>
    have condition := Grammar.has_parseCondition takes compiles (pos.right offset) source
    refine ⟨has.chunks, List.forall_mem_cons.2 ⟨⟨?_, kept.nil _⟩, has.conditionals⟩⟩
    exact ⟨List.forall_mem_nil _, condition⟩
  | elseifMark source offset pos =>
    have condition := Grammar.has_parseCondition takes compiles (pos.right offset) source
    unfold addToken
    dsimp only
    refine has_nextBranch kept (has_addErrors _ has) fun before last arms arm => ?_
    exact ⟨List.forall_mem_append.2 ⟨arms, List.forall_mem_singleton.2 arm⟩, condition⟩
  | elseMark pos =>
    refine has_nextBranch kept has fun before last arms arm => ?_
    cases before with
    | nil => exact List.forall_mem_singleton.2 arm
    | cons first more =>
      exact List.forall_mem_append.2 ⟨arms, List.forall_mem_singleton.2 arm⟩
  | endifMark pos =>
    unfold addToken
    dsimp only
    split
    · exact has_addErrors _ has
    · exact has_closeInnermost kept has

theorem chunks_finish (has : a.Has T name) : T.chunks name (a.finish name).1 := by
  have closed (outer : List OpenConditional) : (closeAll name outer a).Has T name := by
    induction outer generalizing a with
    | nil => exact has
    | cons c outer ih => exact ih (has_closeInnermost kept (has_addErrors _ has))
  exact (closed a.conditionals).chunks

theorem chunks_ofTokens (ctx : ParseContext) (compiles : ctx.Has T) {tokens : List Token}
    (keepsLine : ∀ token ∈ tokens, token.KeepsLine) (nonempty : ∀ s, .text s ∈ tokens → s ≠ []) :
    T.chunks ctx.owner (ofTokens ctx tokens).1 := by
  have nothing : empty.Has T ctx.owner := ⟨kept.nil _, List.forall_mem_nil _⟩
  have added : (tokens.foldl (addToken ctx) empty).Has T ctx.owner :=
    List.foldlRecOn (motive := fun a => a.Has T ctx.owner) tokens (addToken ctx) nothing
      fun a has token member => has_addToken kept compiles has (keepsLine token member)
        fun s same => nonempty s (same ▸ member)
  exact chunks_finish kept added

end
end Assembly

/-- Whatever a source compiles to has the trait, the templates written in place inside it too. -/
theorem Traits.Kept.compileChunks (kept : T.Kept) (d : Delimiters) (name : String)
    (source : List Char) : T.chunks name (compileChunks d name source).1 := by
  induction size : source.length using Nat.strong_induction_on generalizing name source with
  | _ n ih =>
  subst size
  rw [Stencil.compileChunks]
  split
  · exact kept.nil name
  · rename_i tokens read
    have nonempty : ∀ s, .text s ∈ tokens → s ≠ [] := by
      obtain ⟨pieced, -, rfl⟩ := Token.ofSource_eq_ok_iff.1 read
      exact fun s => Token.ne_nil_of_mem_joinTexts
    refine Assembly.chunks_ofTokens kept ⟨name, _⟩ (fun inlineName body => ?_)
      (Token.keepsLine_ofSource read) nonempty
    dsimp only
    split
    · rename_i shorter
      exact ih body.length shorter inlineName body rfl
    · exact kept.nil inlineName

end Stencil
