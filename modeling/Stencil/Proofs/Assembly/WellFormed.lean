import Mathlib.Data.List.Chain
import Stencil.Proofs.Assembly.Frames
import Stencil.Proofs.Assembly.Traits
/-!
# Well-formed templates

What renderers rely on holds of every template that a source compiles to, in its branches, in the
templates written in place, in arguments and in options, and whatever is wrong with the source.
-/
namespace Stencil

namespace Chunk

def isLiteral : Chunk → Bool
  | .literal _ => true
  | _ => false

/-- No literal is empty, and none stands next to another. -/
structure LiteralsApart (chunks : List Chunk) : Prop where
  nonempty : .literal "" ∉ chunks
  apart : chunks.IsChain fun a b => ¬(a.isLiteral ∧ b.isLiteral)

end Chunk

mutual

inductive Expr.WellFormed : Expr → Prop
  | concat {left right : Expr} : Expr.WellFormed left → Expr.WellFormed right →
    Expr.WellFormed (.concat left right)
  | attr (name : String) : Expr.WellFormed (.attribute name)
  | number (n : Int64) : Expr.WellFormed (.number n)
  | text (s : String) : Expr.WellFormed (.text s)
  | property {target : Expr} {name : PropertyName} : Expr.WellFormed target →
    PropertyName.WellFormed name → Expr.WellFormed (.property target name)
  | call {target : Target} {args : Arguments} : Target.WellFormed target →
    Arguments.WellFormed args → Expr.WellFormed (.call target args)
  | apply {source : Expr} {refs : List TemplateRef} : Expr.WellFormed source → refs ≠ [] →
    (∀ ref ∈ refs, TemplateRef.WellFormed ref) → Expr.WellFormed (.apply source refs)
  | applyAligned {sources : List Expr} {ref : TemplateRef} : 2 ≤ sources.length →
    (∀ e ∈ sources, Expr.WellFormed e) → TemplateRef.WellFormed ref →
    Expr.WellFormed (.applyAligned sources ref)
  | rendered {inner : Expr} : Expr.WellFormed inner → Expr.WellFormed (.rendered inner)
  | not {inner : Expr} : Expr.WellFormed inner → Expr.WellFormed (.not inner)
  | builtin (f : Builtin) {inner : Expr} : Expr.WellFormed inner →
    Expr.WellFormed (.builtin f inner)
  | list {items : List Expr} : (∀ e ∈ items, Expr.WellFormed e) → Expr.WellFormed (.list items)

inductive PropertyName.WellFormed : PropertyName → Prop
  | fixed (name : String) : PropertyName.WellFormed (.fixed name)
  | computed {inner : Expr} : Expr.WellFormed inner → PropertyName.WellFormed (.computed inner)

inductive Target.WellFormed : Target → Prop
  | name (name : String) : Target.WellFormed (.name name)
  | super (name : String) : Target.WellFormed (.super name)
  | computed {inner : Expr} : Expr.WellFormed inner → Target.WellFormed (.computed inner)

inductive Arguments.WellFormed : Arguments → Prop
  | none : Arguments.WellFormed .none
  | named {bindings : List (String × Expr)} : (bindings.map Prod.fst).Nodup →
    (∀ b ∈ bindings, Expr.WellFormed b.2) → Arguments.WellFormed (.named bindings)
  | positional {value : Expr} : Expr.WellFormed value → Arguments.WellFormed (.positional value)

inductive TemplateRef.WellFormed : TemplateRef → Prop
  | named {target : Target} {args : Arguments} : Target.WellFormed target →
    Arguments.WellFormed args → TemplateRef.WellFormed (.named target args)
  | inline {t : Template} : t.isInline = true → t.group = none →
    Chunk.AllWellFormed t.name t.chunks → TemplateRef.WellFormed (.inline t)

inductive ExprOptions.WellFormed : ExprOptions → Prop
  | mk {o : ExprOptions} : (∀ e ∈ o.separator, Expr.WellFormed e) →
    (∀ e ∈ o.null, Expr.WellFormed e) → (∀ e ∈ o.format, Expr.WellFormed e) →
    ExprOptions.WellFormed o

/-- A chunk of the template `owner`. -/
inductive Chunk.WellFormed : String → Chunk → Prop
  | literal (owner s : String) : Chunk.WellFormed owner (.literal s)
  | newline (owner s : String) : Chunk.WellFormed owner (.newline s)
  | expression (owner : String) {e : Expr} {options : ExprOptions} (indent? : Option String) :
    Expr.WellFormed e → ExprOptions.WellFormed options →
    Chunk.WellFormed owner (.expression e options indent?)
  | conditional {owner : String} {condition : Expr} {holds : Template}
    {otherwise : Option Template} : Expr.WellFormed condition →
    Template.BranchOf owner holds → (∀ t ∈ otherwise, Template.BranchOf owner t) →
    Chunk.WellFormed owner (.conditional condition holds otherwise)

/-- The chunks of the template `owner`. -/
inductive Chunk.AllWellFormed : String → List Chunk → Prop
  | mk {owner : String} {chunks : List Chunk} : Chunk.LiteralsApart chunks →
    (∀ chunk ∈ chunks, Chunk.WellFormed owner chunk) → Chunk.AllWellFormed owner chunks

/-- A branch of a conditional in the template `owner`. -/
inductive Template.BranchOf : String → Template → Prop
  | mk {owner : String} {t : Template} : t.name = owner → t.formals = [] → t.isInline = false →
    t.group = none → Chunk.AllWellFormed owner t.chunks → Template.BranchOf owner t

end

def Template.WellFormed (t : Template) : Prop := Chunk.AllWellFormed t.name t.chunks

namespace Chunk

variable {s t : String} {chunk : Chunk} {chunks : List Chunk}

/-- Whether a chunk may stand behind others depends on the last of them only. -/
theorem literalsApart_concat : LiteralsApart (chunks ++ [chunk]) ↔ LiteralsApart chunks ∧
    chunk ≠ .literal "" ∧ ∀ last ∈ chunks.getLast?, ¬(last.isLiteral ∧ chunk.isLiteral) := by
  constructor
  · rintro ⟨nonempty, apart⟩
    rw [List.isChain_append] at apart
    rw [List.mem_append, not_or, List.mem_singleton] at nonempty
    exact ⟨⟨nonempty.1, apart.1⟩, fun same => nonempty.2 same.symm,
      fun last isLast => apart.2.2 last isLast chunk rfl⟩
  · rintro ⟨⟨nonempty, apart⟩, filled, meets⟩
    refine ⟨?_, apart.append (List.isChain_singleton _) fun last isLast next isNext => ?_⟩
    · rw [List.mem_append, not_or, List.mem_singleton]
      exact ⟨nonempty, fun same => filled same.symm⟩
    · cases isNext
      exact meets last isLast

theorem literalsApart_nil : LiteralsApart [] := ⟨List.not_mem_nil, .nil⟩

theorem LiteralsApart.concat (ok : LiteralsApart chunks) (other : chunk.isLiteral = false) :
    LiteralsApart (chunks ++ [chunk]) := by
  refine literalsApart_concat.2 ⟨ok, ?_, fun last _ => by simp [other]⟩
  rintro rfl
  cases other

/-- A text is joined to the literal that it would stand next to. -/
theorem LiteralsApart.appendText (ok : LiteralsApart chunks) (nonempty : s ≠ "") :
    LiteralsApart (Assembly.appendText chunks s) := by
  unfold Assembly.appendText
  split
  · rename_i t isLast
    obtain ⟨init, rfl⟩ := List.getLast?_eq_some_iff.1 isLast
    obtain ⟨before, filled, meets⟩ := literalsApart_concat.1 ok
    rw [List.dropLast_concat]
    refine literalsApart_concat.2 ⟨before, fun none => ?_, meets⟩
    rw [Chunk.literal.injEq, String.append_eq_empty_iff] at none
    exact nonempty none.2
  · rename_i noLiteral
    refine literalsApart_concat.2 ⟨ok, fun none => nonempty (Chunk.literal.inj none), ?_⟩
    rintro last isLast ⟨literal, -⟩
    cases last with
    | literal t => exact noLiteral t isLast
    | _ => cases literal

/-- The last chunk of a text's literal is a literal. -/
theorem mem_appendText (member : chunk ∈ Assembly.appendText chunks s) :
    chunk ∈ chunks ∨ ∃ t, chunk = .literal t := by
  unfold Assembly.appendText at member
  split at member
  · rcases List.mem_append.1 member with old | new
    · exact .inl ((List.dropLast_sublist chunks).subset old)
    · exact .inr ⟨_, List.mem_singleton.1 new⟩
  · rcases List.mem_append.1 member with old | new
    · exact .inl old
    · exact .inr ⟨_, List.mem_singleton.1 new⟩

theorem AllWellFormed.concat {owner : String} (ok : AllWellFormed owner chunks)
    (other : chunk.isLiteral = false) (wellFormed : chunk.WellFormed owner) :
    AllWellFormed owner (chunks ++ [chunk]) := by
  obtain ⟨apart, each⟩ := ok
  refine ⟨apart.concat other, ?_⟩
  exact List.forall_mem_append.2 ⟨each, List.forall_mem_singleton.2 wellFormed⟩

end Chunk

theorem Template.branchOf_plain {owner : String} {chunks : List Chunk}
    (ok : Chunk.AllWellFormed owner chunks) : BranchOf owner (.plain owner chunks) :=
  ⟨rfl, rfl, rfl, rfl, ok⟩

/-- Well-formedness as a trait of phrases and chunks. -/
def Traits.wellFormed : Traits where
  expr := Expr.WellFormed
  target := Target.WellFormed
  args := Arguments.WellFormed
  ref := TemplateRef.WellFormed
  options := ExprOptions.WellFormed
  chunks := Chunk.AllWellFormed

namespace Traits

theorem wellFormed_expressed : wellFormed.Expressed where
  ofAttribute := .attr
  ofNumber := .number
  ofText := .text
  ofConcat := .concat
  ofProperty name target := .property target (.fixed name)
  ofComputedProperty target inner := .property target (.computed inner)
  ofCall := .call
  ofApply := .apply
  ofApplyAligned := .applyAligned
  ofRendered := .rendered
  ofNot := .not
  ofBuiltin := .builtin
  ofList := .list
  ofName := .name
  ofSuper := .super
  ofComputed := .computed
  ofNoArgs := .none
  ofNamed := .named
  ofPositional := .positional
  ofReference := .named
  ofInline _ ok := .inline rfl rfl ok
  ofNoOptions := .mk nofun nofun nofun
  ofSeparator options given := by
    obtain ⟨-, null, format⟩ := options
    refine .mk ?_ null format
    rintro _ ⟨⟩
    exact given
  ofNull options given := by
    obtain ⟨separator, -, format⟩ := options
    refine .mk separator ?_ format
    rintro _ ⟨⟩
    exact given
  ofFormat options given := by
    obtain ⟨separator, null, -⟩ := options
    refine .mk separator null ?_
    rintro _ ⟨⟩
    exact given

theorem wellFormed_kept : wellFormed.Kept where
  toExpressed := wellFormed_expressed
  nil _ := ⟨Chunk.literalsApart_nil, List.forall_mem_nil _⟩
  literal {name s chunks} ok nonempty := by
    obtain ⟨apart, each⟩ := ok
    refine ⟨apart.appendText nonempty, fun chunk member => ?_⟩
    rcases Chunk.mem_appendText member with old | ⟨t, rfl⟩
    · exact each chunk old
    · exact .literal name t
  newline s ok := ok.concat rfl (.newline _ s)
  expression ok e options _ := ok.concat rfl (.expression _ _ e options)
  conditional ok condition body others := by
    refine ok.concat rfl (.conditional condition (Template.branchOf_plain body) fun t member => ?_)
    obtain ⟨body, rfl, ok⟩ := others t member
    exact Template.branchOf_plain ok

end Traits

/-- Whatever the source, it compiles to a well-formed template, and no conditional of it is put
together without an arm: anything may stand for such a conditional. -/
theorem Template.compiled_wellFormed (d : Delimiters) (name source : String) :
    (compileLenient d name source).1.WellFormed ∧
      ∀ fallback : Chunk,
        compileFramed fallback d name source.toList = compileChunks d name source.toList ∧
        ∀ (ctx : ParseContext) (tokens : List Token),
          ∀ f ∈ (tokens.foldl (FramedAssembly.addToken fallback ctx) .empty).frames,
            f.arms ≠ [] :=
  ⟨Traits.wellFormed_kept.compileChunks d name source.toList, fun fallback =>
    ⟨compileFramed_eq fallback d name source.toList, fun _ tokens =>
      Assembly.frames_have_arms fallback tokens⟩⟩

end Stencil
