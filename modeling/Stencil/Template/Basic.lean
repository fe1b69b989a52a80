/-!
# Templates

A compiled template is a list of chunks: literal text, line ends, expressions and conditionals.
Expressions name attributes and call or apply other templates, some of them written in place.
-/
namespace Stencil

/-- The list functions of the expression language. -/
inductive Builtin where
  | first | rest | last | length | strip | trunc
  deriving DecidableEq, Repr

def Builtin.ofName? : String → Option Builtin
  | "first" => some first
  | "rest" => some rest
  | "last" => some last
  | "length" => some length
  | "strip" => some strip
  | "trunc" => some trunc
  | _ => none

mutual

inductive Expr where
  | concat (left right : Expr)
  | attribute (name : String)
  | number (n : Int64)
  | text (s : String)
  | property (target : Expr) (name : PropertyName)
  | call (target : Target) (args : Arguments)
  /-- `source : t1(), t2(), …`: one instance for each element, the templates taken in turn. -/
  | apply (source : Expr) (templates : List TemplateRef)
  /-- `a, b, … : t`: one instance for each step through all the sources. -/
  | applyAligned (sources : List Expr) (template : TemplateRef)
  /-- `(inner)`: rendered to a text at once. -/
  | rendered (inner : Expr)
  | not (inner : Expr)
  | builtin (function : Builtin) (inner : Expr)
  | list (items : List Expr)

/-- A property is named in the source or computed when the template is rendered. -/
inductive PropertyName where
  | fixed (name : String)
  | computed (name : Expr)

/-- How a call names its template. -/
inductive Target where
  | name (name : String)
  /-- `super.name`: looked up from the parent of the calling template's group. -/
  | super (name : String)
  | computed (name : Expr)

inductive Arguments where
  | none
  | named (bindings : List (String × Expr))
  /-- The value of the only formal parameter. -/
  | positional (value : Expr)

inductive TemplateRef where
  | named (target : Target) (args : Arguments)
  | inline (template : Template)

structure ExprOptions where
  separator : Option Expr
  /-- Stands for null values. -/
  null : Option Expr
  /-- The format name given to the formatter. -/
  format : Option Expr

inductive Chunk where
  | literal (s : String)
  | newline (s : String)
  | expression (expr : Expr) (options : ExprOptions) (indent : Option String)
  | conditional (condition : Expr) (holds : Template) (otherwise : Option Template)

structure Template where
  name : String
  formals : List String
  chunks : List Chunk
  /-- Written in braces inside an expression. -/
  isInline : Bool
  /-- The group that the template was defined in. -/
  group : Option String

end

namespace ExprOptions

def none : ExprOptions := ⟨.none, .none, .none⟩

instance : Inhabited ExprOptions := ⟨none⟩

def isEmpty (o : ExprOptions) : Bool :=
  o.separator.isNone && o.null.isNone && o.format.isNone

end ExprOptions

namespace Template

/-- A template without parameters that belongs to no group. -/
def plain (name : String) (chunks : List Chunk) : Template := ⟨name, [], chunks, false, .none⟩

instance : Inhabited Template := ⟨plain "" []⟩

def hasFormal (t : Template) (name : String) : Bool := t.formals.contains name

def withFormals (t : Template) (formals : List String) : Template := { t with formals }

def inGroup (t : Template) (group : String) : Template := { t with group := some group }

/-- The first chunk is a conditional without an else branch. -/
def isPureConditional (t : Template) : Bool :=
  match t.chunks with
  | .conditional _ _ .none :: _ => true
  | _ => false

end Template
end Stencil
