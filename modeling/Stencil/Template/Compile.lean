import Stencil.Template.Assembly
/-!
# Compiling templates

A source compiles to a template and a list of errors; the template is the best that can be made of
the source. Inline templates are compiled from their bodies, which are shorter than the source
around them.
-/
namespace Stencil

/-- The chunks of a source under a template's name, and what is wrong with it. -/
def compileChunks (d : Delimiters) (name : String) (source : List Char) :
    List Chunk × List TemplateError :=
  match Token.ofSource d source with
  | .error e => ([], [e])
  | .ok tokens =>
    let compileInline (inlineName : String) (body : List Char) :
        List Chunk × List TemplateError :=
      if _shorter : body.length < source.length then compileChunks d inlineName body
      else ([], [])
    Assembly.ofTokens ⟨name, compileInline⟩ tokens
termination_by source.length

namespace Template

/-- Compiles as much of a source as possible. -/
def compileLenient (d : Delimiters) (name source : String) : Template × List TemplateError :=
  let (chunks, errors) := compileChunks d name source.toList
  (plain name chunks, errors)

/-- Compiles a source without errors; otherwise the first error counts. -/
def compile (d : Delimiters) (name source : String) : Except TemplateError Template :=
  match compileLenient d name source with
  | (template, []) => .ok template
  | (_, e :: _) => .error e

theorem compile_eq_ok_iff {d : Delimiters} {name : String} {source : List Char} {t : Template} :
    compile d name (.ofList source) = .ok t ↔
      (compileChunks d name source).2 = [] ∧ plain name (compileChunks d name source).1 = t := by
  rw [compile, compileLenient, String.toList_ofList]
  generalize compileChunks d name source = result
  obtain ⟨chunks, _ | ⟨e, errors⟩⟩ := result
  · simp
  · simp

end Template
end Stencil
