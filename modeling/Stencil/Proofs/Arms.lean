import Stencil.Proofs.Assembly.Chains
import Stencil.Proofs.Deeper
import Stencil.Proofs.Scanning.Shorter
import Stencil.Proofs.Sequence
/-!
# The first arm that holds

A chain of conditions is kept as conditionals inside each other, and rendered as what it reads like:
one condition is tried after the other, up to the first one that holds.
-/
namespace Stencil

open Text (Position)

namespace Evaluator

/-- Evaluates the conditions of arms in turn up to the first one that holds, and renders the body of
that arm. If there is none, renders the else branch. The steps below are those of `ev k` where `k`
arms are still to come. -/
def renderArms (ev : Nat → Evaluator) (scope : Handle) (otherwise : Option (List Chunk)) :
    List Arm → Run Nat
  | [] =>
    match otherwise with
    | some chunks => (ev 0).render scope chunks
    | none => return 0
  | arm :: rest => do
    let v ← (ev rest.length).eval scope arm.condition
    if v.truthy then (ev rest.length).render scope arm.body
    else renderArms ev scope otherwise rest

variable {setting : Setting} {scope : Handle} {otherwise : Option (List Chunk)}
  {s t : RenderState} {n : Nat}

theorem render_singleton (setting : Setting) (depth : Nat) (scope : Handle) (chunk : Chunk) :
    (ofDepth setting (depth + 1)).render scope [chunk] =
      (ofDepth setting depth).renderChunk setting scope chunk := by
  change (ofDepth setting depth).renderStep setting scope [chunk] = _
  simp only [renderStep, pure_bind, Nat.add_zero, bind_pure]

/-- Each arm that is nested in the else branch of another one is tried one step deeper. -/
theorem renderChunk_conditional (setting : Setting) (scope : Handle) (name : String)
    (otherwise : Option (List Chunk)) (depth : Nat) (first : Arm) (more : List Arm) :
    (ofDepth setting (depth + more.length)).renderChunk setting scope
        (Assembly.conditional name first (otherwise.map (.plain name)) more) =
      renderArms (fun k => ofDepth setting (depth + k)) scope otherwise (first :: more) := by
  induction more generalizing first with
  | nil => cases otherwise <;> rfl
  | cons next more ih =>
    have nested : (ofDepth setting (depth + (next :: more).length)).render scope
        [Assembly.conditional name next (otherwise.map (.plain name)) more] =
        renderArms (fun k => ofDepth setting (depth + k)) scope otherwise (next :: more) :=
      (render_singleton _ _ _ _).trans (ih next)
    rw [renderArms, ← nested]
    rfl

/-- Arms that come to an end do so where the steps below may go deeper. -/
theorem renderArms_of_related {ev ev' : Nat → Evaluator} {arms : List Arm}
    (rel : ∀ k ≤ arms.length, Deeper.lockstep.Related (ev k) (ev' k))
    (ended : renderArms ev scope otherwise arms s = .ok n t) :
    renderArms ev' scope otherwise arms s = .ok n t := by
  induction arms generalizing s with
  | nil =>
    cases otherwise with
    | some chunks => exact Deeper.render_of_related (rel 0 (Nat.le_refl 0)) ended
    | none => exact ended
  | cons arm rest ih =>
    have own := rel rest.length (Nat.le_succ _)
    obtain ⟨v, u, evaluated, chosen⟩ := Run.bind_ok ended
    rw [renderArms, Run.bind_of_ok _ (Deeper.eval_of_related own evaluated)]
    cases truthy : v.truthy with
    | true =>
      rw [truthy] at chosen
      exact Deeper.render_of_related own chosen
    | false =>
      rw [truthy] at chosen
      exact ih (fun k le => rel k (Nat.le_succ_of_le le)) chosen

/-- How deep the single steps may go does not matter where the render comes to an end. -/
theorem renderChunk_conditional_ok_iff (name : String) (first : Arm) (more : List Arm) :
    (∃ depth, (ofDepth setting depth).renderChunk setting scope
        (Assembly.conditional name first (otherwise.map (.plain name)) more) s = .ok n t) ↔
      ∃ depth, renderArms (fun _ => ofDepth setting depth) scope otherwise (first :: more) s =
        .ok n t := by
  constructor
  · rintro ⟨depth, ended⟩
    have deeper : Deeper.lockstep.Related (ofDepth setting (depth + 1))
        (ofDepth setting (depth + more.length + 1)) :=
      Deeper.related_ofDepth setting (by omega)
    rw [← render_singleton] at ended
    have flat := Deeper.render_of_related deeper ended
    rw [render_singleton, renderChunk_conditional] at flat
    exact ⟨depth + (first :: more).length, renderArms_of_related (fun k le =>
      Deeper.related_ofDepth setting (Nat.add_le_add_left le depth)) flat⟩
  · rintro ⟨depth, ended⟩
    refine ⟨depth + more.length, ?_⟩
    rw [renderChunk_conditional]
    exact renderArms_of_related (fun k _ =>
      Deeper.related_ofDepth setting (Nat.le_add_right depth k)) ended

end Evaluator

/-- A chain of conditions, wherever it stands in a source, compiles to one chunk in the branch that
is open there. In every activation, rendering the chunk is trying the arms in turn, whatever comes
of it. A render that comes to an end does so in the same way if all steps may go equally deep. -/
theorem first_true_arm_wins {d : Delimiters} {name : String} {source : List Char}
    {before behind : List Token} {chain : Chain}
    (split : Token.ofSource d source = .ok (before ++ (chain.tokens ++ behind)))
    (wellNested : chain.WellNested ⟨name, compileChunks d⟩) :
    let ctx : ParseContext := ⟨name, compileChunks d⟩
    ∃ chunk errors,
      (compileChunks d name source).1 = ((behind.foldl (Assembly.addToken ctx)
        (((before.foldl (Assembly.addToken ctx) .empty).addErrors errors).addChunk chunk)).finish
          name).1 ∧
      (∀ setting scope depth,
        (Evaluator.ofDepth setting (depth + chain.more.length)).renderChunk setting scope chunk =
          Evaluator.renderArms (fun k => .ofDepth setting (depth + k)) scope (chain.otherwise ctx)
            (chain.arms ctx)) ∧
      ∀ setting scope s n t,
        (∃ depth, (Evaluator.ofDepth setting depth).renderChunk setting scope chunk s = .ok n t) ↔
          ∃ depth, Evaluator.renderArms (fun _ => .ofDepth setting depth) scope
            (chain.otherwise ctx) (chain.arms ctx) s = .ok n t := by
  intro ctx
  refine ⟨chain.chunk ctx, chain.tokens.flatMap (Token.errors ctx), ?_, ?_, ?_⟩
  · rw [(compileChunks_eq split name).1, Assembly.ofTokens, List.foldl_append, List.foldl_append,
      Chain.foldl_tokens wellNested]
  · intro setting scope depth
    have arms : chain.more.length = (chain.more.map (Passage.arm ctx)).length :=
      (List.length_map _).symm
    rw [arms]
    exact Evaluator.renderChunk_conditional setting scope name _ depth _ _
  · intro setting scope s n t
    exact Evaluator.renderChunk_conditional_ok_iff name _ _

/-- `$if(a)$x$elseif(b)$y$else$z$endif$` behind `$if(o)$` -/
def Chain.lettered : Chain where
  first := ⟨['a'], 3, ⟨1, 9⟩, [.text ['x']]⟩
  more := [⟨['b'], 7, ⟨1, 17⟩, [.text ['y']]⟩]
  otherwise? := some (⟨1, 29⟩, [.text ['z']])
  stop := ⟨1, 36⟩

theorem Chain.wellNested_lettered (ctx : ParseContext) : lettered.WellNested ctx where
  arms := List.forall_mem_cons.2
    ⟨⟨_, .text ctx ['x']⟩, List.forall_mem_singleton.2 ⟨_, .text ctx ['y']⟩⟩
  otherwise := by
    rintro pos body ⟨⟩
    exact ⟨_, .text ctx ['z']⟩

theorem nested_second_arm_wins :
    let source := "$if(o)$$if(a)$x$elseif(b)$y$else$z$endif$$endif$".toList
    let page := (((Arena.empty.instantiate (.plain "page" [])).2.setAttribute ⟨0⟩ "a"
      (.bool false)).setAttribute ⟨0⟩ "b" (.bool true))
    ∃ condition chunk,
      (compileChunks .dollar "page" source).1 =
        [.conditional condition (.plain "page" [chunk]) none] ∧
      ∃ t, (Evaluator.ofDepth .standard 3).renderChunk .standard ⟨0⟩ chunk
          ⟨page, [], .fresh .autoIndent⟩ = .ok 1 t ∧
        t.writer.text = "y" ∧ t.diagnostics = [] := by
  intro source page
  have split : Token.ofSource .dollar source =
      .ok ([.ifMark ['o'] 3 ⟨1, 2⟩] ++ (Chain.lettered.tokens ++ [.endifMark ⟨1, 43⟩])) := by
    decide +kernel
  obtain ⟨chunk, errors, compiled, renders, -⟩ :=
    first_true_arm_wins split (Chain.wellNested_lettered ⟨"page", compileChunks .dollar⟩)
  have first : Lexeme.scan ⟨1, 12⟩ ['a'] = .ok ⟨[⟨.name "a", ⟨1, 12⟩⟩], ⟨1, 13⟩⟩ := by
    decide +kernel
  have second : Lexeme.scan ⟨1, 24⟩ ['b'] = .ok ⟨[⟨.name "b", ⟨1, 24⟩⟩], ⟨1, 25⟩⟩ := by
    decide +kernel
  have arms : Chain.lettered.arms ⟨"page", compileChunks .dollar⟩ =
      [⟨.attribute "a", [.literal "x"]⟩, ⟨.attribute "b", [.literal "y"]⟩] := by
    simp only [Chain.arms, Chain.passages, Chain.lettered, Passage.arm, Position.right,
      List.map_cons, List.map_nil, Grammar.parseCondition_name _ first,
      Grammar.parseCondition_name _ second]
    rfl
  have ran := renders .standard ⟨0⟩ 2
  rw [arms] at ran
  exact ⟨_, chunk, compiled, _, congrFun ran _, by decide +kernel, by decide +kernel⟩

end Stencil
