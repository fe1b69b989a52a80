import Stencil.Template.Basic
/-!
# The indentations of a template

The indentations that the chunks of a template open, those of its branches and of the templates
written in place inside it included.
-/
namespace Stencil

mutual

def Expr.indents : Expr → List String
  | .concat left right => left.indents ++ right.indents
  | .attribute _ => []
  | .number _ => []
  | .text _ => []
  | .property target name => target.indents ++ name.indents
  | .call t args => t.indents ++ args.indents
  | .apply source templates => source.indents ++ TemplateRef.allIndents templates
  | .applyAligned sources ref => Expr.allIndents sources ++ ref.indents
  | .rendered inner => inner.indents
  | .not inner => inner.indents
  | .builtin _ inner => inner.indents
  | .list items => Expr.allIndents items

def Expr.allIndents : List Expr → List String
  | [] => []
  | e :: rest => e.indents ++ Expr.allIndents rest

def Expr.optionalIndents : Option Expr → List String
  | none => []
  | some e => e.indents

def PropertyName.indents : PropertyName → List String
  | .fixed _ => []
  | .computed e => e.indents

def Target.indents : Target → List String
  | .name _ => []
  | .super _ => []
  | .computed e => e.indents

def Arguments.indents : Arguments → List String
  | .none => []
  | .named bindings => Arguments.bindingIndents bindings
  | .positional e => e.indents

def Arguments.bindingIndents : List (String × Expr) → List String
  | [] => []
  | (_, e) :: rest => e.indents ++ Arguments.bindingIndents rest

def TemplateRef.indents : TemplateRef → List String
  | .named t args => t.indents ++ args.indents
  | .inline t => t.indents

def TemplateRef.allIndents : List TemplateRef → List String
  | [] => []
  | ref :: rest => ref.indents ++ TemplateRef.allIndents rest

def ExprOptions.indents : ExprOptions → List String
  | ⟨separator, null, format⟩ =>
    Expr.optionalIndents separator ++ Expr.optionalIndents null ++ Expr.optionalIndents format

def Chunk.indents : Chunk → List String
  | .literal _ => []
  | .newline _ => []
  | .expression e options indent? => indent?.toList ++ e.indents ++ options.indents
  | .conditional condition holds otherwise =>
    condition.indents ++ holds.indents ++ Template.optionalIndents otherwise

def Chunk.allIndents : List Chunk → List String
  | [] => []
  | chunk :: rest => chunk.indents ++ Chunk.allIndents rest

def Template.indents : Template → List String
  | ⟨_, _, chunks, _, _⟩ => Chunk.allIndents chunks

def Template.optionalIndents : Option Template → List String
  | none => []
  | some t => t.indents

end

theorem Template.indents_eq (t : Template) : t.indents = Chunk.allIndents t.chunks := by
  cases t
  rw [Template.indents]

/-- All the indentations are allowed. -/
def Within (allowed : String → Prop) (indents : List String) : Prop :=
  ∀ indent ∈ indents, allowed indent

instance (allowed : String → Prop) [DecidablePred allowed] (indents : List String) :
    Decidable (Within allowed indents) :=
  List.decidableBAll allowed indents

section Within

variable {allowed : String → Prop} {indents more : List String}

theorem within_nil : Within allowed [] := List.forall_mem_nil _

@[simp] theorem within_append :
    Within allowed (indents ++ more) ↔ Within allowed indents ∧ Within allowed more :=
  List.forall_mem_append

theorem within_everything (indents : List String) : Within (fun _ => True) indents :=
  fun _ _ => trivial

end Within

/-! ## Lists of phrases -/

section Lists

variable {allowed : String → Prop}

theorem Expr.within_allIndents {items : List Expr} :
    Within allowed (allIndents items) ↔ ∀ e ∈ items, Within allowed e.indents := by
  induction items with
  | nil => simp [allIndents, within_nil]
  | cons e rest ih => rw [allIndents, within_append, ih, List.forall_mem_cons]

theorem Arguments.within_bindingIndents {bindings : List (String × Expr)} :
    Within allowed (bindingIndents bindings) ↔ ∀ b ∈ bindings, Within allowed b.2.indents := by
  induction bindings with
  | nil => simp [bindingIndents, within_nil]
  | cons b rest ih => rw [bindingIndents, within_append, ih, List.forall_mem_cons]

theorem TemplateRef.within_allIndents {refs : List TemplateRef} :
    Within allowed (allIndents refs) ↔ ∀ ref ∈ refs, Within allowed ref.indents := by
  induction refs with
  | nil => simp [allIndents, within_nil]
  | cons ref rest ih => rw [allIndents, within_append, ih, List.forall_mem_cons]

theorem Chunk.within_allIndents {chunks : List Chunk} :
    Within allowed (allIndents chunks) ↔ ∀ chunk ∈ chunks, Within allowed chunk.indents := by
  induction chunks with
  | nil => simp [allIndents, within_nil]
  | cons chunk rest ih => rw [allIndents, within_append, ih, List.forall_mem_cons]

end Lists

end Stencil
