import Stencil.Template.Basic
/-!
# The names in a template

Branches and templates written in place are named after the template that they belong to. Apart from
these names they do not depend on it.
-/
namespace Stencil

variable (f : String → String)

mutual

/-- Changes the names of all the templates that are written inside an expression. -/
def Expr.rename : Expr → Expr
  | .concat left right => .concat left.rename right.rename
  | .attribute name => .attribute name
  | .number n => .number n
  | .text s => .text s
  | .property target name => .property target.rename name.rename
  | .call t args => .call t.rename args.rename
  | .apply source templates => .apply source.rename (TemplateRef.renameAll templates)
  | .applyAligned sources ref => .applyAligned (Expr.renameAll sources) ref.rename
  | .rendered inner => .rendered inner.rename
  | .not inner => .not inner.rename
  | .builtin function inner => .builtin function inner.rename
  | .list items => .list (Expr.renameAll items)

def Expr.renameAll : List Expr → List Expr
  | [] => []
  | e :: rest => e.rename :: Expr.renameAll rest

def Expr.renameOptional : Option Expr → Option Expr
  | none => none
  | some e => some e.rename

def PropertyName.rename : PropertyName → PropertyName
  | .fixed name => .fixed name
  | .computed e => .computed e.rename

def Target.rename : Target → Target
  | .name name => .name name
  | .super name => .super name
  | .computed e => .computed e.rename

def Arguments.rename : Arguments → Arguments
  | .none => .none
  | .named bindings => .named (Arguments.renameBindings bindings)
  | .positional e => .positional e.rename

def Arguments.renameBindings : List (String × Expr) → List (String × Expr)
  | [] => []
  | (name, e) :: rest => (name, e.rename) :: Arguments.renameBindings rest

def TemplateRef.rename : TemplateRef → TemplateRef
  | .named t args => .named t.rename args.rename
  | .inline t => .inline t.rename

def TemplateRef.renameAll : List TemplateRef → List TemplateRef
  | [] => []
  | ref :: rest => ref.rename :: TemplateRef.renameAll rest

def ExprOptions.rename : ExprOptions → ExprOptions
  | ⟨separator, null, format⟩ =>
    ⟨Expr.renameOptional separator, Expr.renameOptional null, Expr.renameOptional format⟩

def Chunk.rename : Chunk → Chunk
  | .literal s => .literal s
  | .newline s => .newline s
  | .expression e options indent? => .expression e.rename options.rename indent?
  | .conditional condition holds otherwise =>
    .conditional condition.rename holds.rename (Template.renameOptional otherwise)

def Chunk.renameAll : List Chunk → List Chunk
  | [] => []
  | chunk :: rest => chunk.rename :: Chunk.renameAll rest

def Template.rename : Template → Template
  | ⟨name, formals, chunks, isInline, group⟩ =>
    ⟨f name, formals, Chunk.renameAll chunks, isInline, group⟩

def Template.renameOptional : Option Template → Option Template
  | none => none
  | some t => some t.rename

end

@[simp] theorem Expr.renameAll_eq (items : List Expr) :
    Expr.renameAll f items = items.map (rename f) := by
  induction items with
  | nil => rfl
  | cons e rest ih => rw [renameAll, ih, List.map_cons]

@[simp] theorem Arguments.renameBindings_eq (bindings : List (String × Expr)) :
    renameBindings f bindings = bindings.map fun b => (b.1, b.2.rename f) := by
  induction bindings with
  | nil => rfl
  | cons b rest ih => rw [renameBindings, ih, List.map_cons]

@[simp] theorem TemplateRef.renameAll_eq (refs : List TemplateRef) :
    renameAll f refs = refs.map (rename f) := by
  induction refs with
  | nil => rfl
  | cons ref rest ih => rw [renameAll, ih, List.map_cons]

@[simp] theorem Chunk.renameAll_eq (chunks : List Chunk) :
    renameAll f chunks = chunks.map (rename f) := by
  induction chunks with
  | nil => rfl
  | cons chunk rest ih => rw [renameAll, ih, List.map_cons]

theorem Template.rename_eq (t : Template) :
    t.rename f = { t with name := f t.name, chunks := t.chunks.map (Chunk.rename f) } := by
  cases t
  rw [rename, Chunk.renameAll_eq]

/-!
## Names left as they are

Two contexts that name everything alike are parallel under the identity, so what is compiled in one
is what is compiled in the other.
-/

mutual

theorem Expr.rename_id (e : Expr) : e.rename id = e := by
  cases e with
  | concat left right => rw [Expr.rename, left.rename_id, right.rename_id]
  | property target name => rw [Expr.rename, target.rename_id, name.rename_id]
  | call t args => rw [Expr.rename, t.rename_id, args.rename_id]
  | apply source templates => rw [Expr.rename, source.rename_id, TemplateRef.renameAll_id]
  | applyAligned sources ref => rw [Expr.rename, Expr.renameAll_id, ref.rename_id]
  | rendered inner => rw [Expr.rename, inner.rename_id]
  | not inner => rw [Expr.rename, inner.rename_id]
  | builtin function inner => rw [Expr.rename, inner.rename_id]
  | list items => rw [Expr.rename, Expr.renameAll_id]
  | _ => rw [Expr.rename]

theorem Expr.renameAll_id (items : List Expr) : Expr.renameAll id items = items := by
  cases items with
  | nil => rw [Expr.renameAll]
  | cons e rest => rw [Expr.renameAll, e.rename_id, Expr.renameAll_id rest]

theorem Expr.renameOptional_id (e? : Option Expr) : Expr.renameOptional id e? = e? := by
  cases e? with
  | none => rw [Expr.renameOptional]
  | some e => rw [Expr.renameOptional, e.rename_id]

theorem PropertyName.rename_id (name : PropertyName) : name.rename id = name := by
  cases name with
  | fixed name => rw [PropertyName.rename]
  | computed e => rw [PropertyName.rename, e.rename_id]

theorem Target.rename_id (t : Target) : t.rename id = t := by
  cases t with
  | computed e => rw [Target.rename, e.rename_id]
  | _ => rw [Target.rename]

theorem Arguments.rename_id (args : Arguments) : args.rename id = args := by
  cases args with
  | none => rw [Arguments.rename]
  | named bindings => rw [Arguments.rename, Arguments.renameBindings_id]
  | positional e => rw [Arguments.rename, e.rename_id]

theorem Arguments.renameBindings_id (bindings : List (String × Expr)) :
    Arguments.renameBindings id bindings = bindings := by
  cases bindings with
  | nil => rw [Arguments.renameBindings]
  | cons b rest =>
    obtain ⟨name, e⟩ := b
    rw [Arguments.renameBindings, e.rename_id, Arguments.renameBindings_id rest]

theorem TemplateRef.rename_id (ref : TemplateRef) : ref.rename id = ref := by
  cases ref with
  | named t args => rw [TemplateRef.rename, t.rename_id, args.rename_id]
  | «inline» t => rw [TemplateRef.rename, t.rename_id]

theorem TemplateRef.renameAll_id (refs : List TemplateRef) : TemplateRef.renameAll id refs = refs := by
  cases refs with
  | nil => rw [TemplateRef.renameAll]
  | cons ref rest => rw [TemplateRef.renameAll, ref.rename_id, TemplateRef.renameAll_id rest]

theorem ExprOptions.rename_id (o : ExprOptions) : o.rename id = o := by
  cases o with
  | mk separator null format =>
    rw [ExprOptions.rename, Expr.renameOptional_id, Expr.renameOptional_id, Expr.renameOptional_id]

theorem Chunk.rename_id (chunk : Chunk) : chunk.rename id = chunk := by
  cases chunk with
  | expression e options indent? => rw [Chunk.rename, e.rename_id, options.rename_id]
  | conditional condition holds otherwise =>
    rw [Chunk.rename, condition.rename_id, holds.rename_id, Template.renameOptional_id]
  | _ => rw [Chunk.rename]

theorem Chunk.renameAll_id (chunks : List Chunk) : Chunk.renameAll id chunks = chunks := by
  cases chunks with
  | nil => rw [Chunk.renameAll]
  | cons chunk rest => rw [Chunk.renameAll, chunk.rename_id, Chunk.renameAll_id rest]

theorem Template.rename_id (t : Template) : t.rename id = t := by
  cases t with
  | mk name formals chunks isInline group => rw [Template.rename, Chunk.renameAll_id, id]

theorem Template.renameOptional_id (t? : Option Template) : Template.renameOptional id t? = t? := by
  cases t? with
  | none => rw [Template.renameOptional]
  | some t => rw [Template.renameOptional, t.rename_id]

end

end Stencil
