import Stencil.Proofs.Assembly.Traits
import Stencil.Proofs.Output.Indents
/-!
# Captured indentations

What stands before an expression at the start of a line is kept with it, to be opened for all lines
that the expression is written on. It consists of spaces and tabs. No template that a source
compiles to therefore opens an indentation with a line end in it, be it one with errors.
-/
namespace Stencil

/-- Only indentations without a line end are opened. -/
def Traits.unbroken : Traits where
  expr e := Within Unbroken e.indents
  target t := Within Unbroken t.indents
  args args := Within Unbroken args.indents
  ref ref := Within Unbroken ref.indents
  options o := Within Unbroken o.indents
  chunks _ chunks := Within Unbroken (Chunk.allIndents chunks)

namespace Traits

theorem unbroken_expressed : unbroken.Expressed where
  ofAttribute _ := within_nil
  ofNumber _ := within_nil
  ofText _ := within_nil
  ofConcat left right := within_append.2 ⟨left, right⟩
  ofProperty _ target := within_append.2 ⟨target, within_nil⟩
  ofComputedProperty target inner := within_append.2 ⟨target, inner⟩
  ofCall target args := within_append.2 ⟨target, args⟩
  ofApply source _ refs := within_append.2 ⟨source, TemplateRef.within_allIndents.2 refs⟩
  ofApplyAligned _ sources ref := within_append.2 ⟨Expr.within_allIndents.2 sources, ref⟩
  ofRendered := id
  ofNot := id
  ofBuiltin _ := id
  ofList := Expr.within_allIndents.2
  ofName _ := within_nil
  ofSuper _ := within_nil
  ofComputed := id
  ofNoArgs := within_nil
  ofNamed _ := Arguments.within_bindingIndents.2
  ofPositional := id
  ofReference target args := within_append.2 ⟨target, args⟩
  ofInline _ := id
  ofNoOptions := within_nil
  ofSeparator {o _} options given := by
    obtain ⟨separator, null, format⟩ := o
    obtain ⟨within, formatted⟩ := within_append.1 options
    obtain ⟨-, nulled⟩ := within_append.1 within
    exact within_append.2 ⟨within_append.2 ⟨given, nulled⟩, formatted⟩
  ofNull {o _} options given := by
    obtain ⟨separator, null, format⟩ := o
    obtain ⟨within, formatted⟩ := within_append.1 options
    obtain ⟨separated, -⟩ := within_append.1 within
    exact within_append.2 ⟨within_append.2 ⟨separated, given⟩, formatted⟩
  ofFormat {o _} options given := by
    obtain ⟨separator, null, format⟩ := o
    obtain ⟨within, -⟩ := within_append.1 options
    exact within_append.2 ⟨within, given⟩

theorem unbroken_concat {chunks : List Chunk} {chunk : Chunk}
    (within : Within Unbroken (Chunk.allIndents chunks)) (within' : Within Unbroken chunk.indents) :
    Within Unbroken (Chunk.allIndents (chunks ++ [chunk])) := by
  rw [Chunk.within_allIndents] at within ⊢
  exact List.forall_mem_append.2 ⟨within, List.forall_mem_singleton.2 within'⟩

theorem unbroken_kept : unbroken.Kept where
  toExpressed := unbroken_expressed
  nil _ := within_nil
  literal {name s chunks} within _ := by
    change Within Unbroken (Chunk.allIndents (Assembly.appendText chunks s))
    change Within Unbroken (Chunk.allIndents chunks) at within
    have literal (t : String) : Within Unbroken (Chunk.literal t).indents := within_nil
    unfold Assembly.appendText
    split
    · rw [Chunk.within_allIndents] at within
      have shorter := (List.dropLast_sublist chunks).subset
      refine unbroken_concat (Chunk.within_allIndents.2 fun chunk member => ?_) (literal _)
      exact within chunk (shorter member)
    · exact unbroken_concat within (literal s)
  newline _ within := unbroken_concat within within_nil
  expression within e options indent :=
    unbroken_concat within (within_append.2 ⟨within_append.2
      ⟨fun _ member => indent _ (Option.mem_toList.1 member), e⟩, options⟩)
  conditional {_ _ _ _ otherwise} within condition body others := by
    refine unbroken_concat within (within_append.2 ⟨within_append.2 ⟨condition, body⟩, ?_⟩)
    cases otherwise with
    | none => exact within_nil
    | some t =>
      obtain ⟨body, rfl, within⟩ := others t rfl
      exact within

end Traits

namespace Template

/-- No template that a source compiles to opens an indentation with a line end in it. -/
theorem within_compileLenient (d : Delimiters) (name source : String) :
    Within Unbroken (compileLenient d name source).1.indents := by
  rw [indents_eq]
  exact Traits.unbroken_kept.compileChunks d name source.toList

theorem within_compile {d : Delimiters} {name source : String} {t : Template}
    (compiled : compile d name source = .ok t) : Within Unbroken t.indents := by
  have lenient := within_compileLenient d name source
  unfold compile at compiled
  split at compiled
  · rename_i same
    cases compiled
    rw [same] at lenient
    exact lenient
  · cases compiled

/-- The chunks of the template are those that a source compiles to. -/
def HasSource (t : Template) : Prop :=
  ∃ d name source compiled, compile d name source = .ok compiled ∧ t.chunks = compiled.chunks

theorem HasSource.within {t : Template} (sourced : t.HasSource) : Within Unbroken t.indents := by
  obtain ⟨d, name, source, compiled, compiles, same⟩ := sourced
  rw [indents_eq, same, ← indents_eq]
  exact within_compile compiles

end Template
end Stencil
