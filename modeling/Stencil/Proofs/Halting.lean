import Stencil.Proofs.Guarded
/-!
# Renders that end

Without calls and applications a render makes no activations, and a strict one goes into each at
most once. So it ends, however its instances hold one another: from some depth on it comes to the
same, which is a text, an instance that encloses itself, or a writer that takes no more.
-/
namespace Stencil

/-! ## Templates without calls -/

/-- Nothing in the expression calls or applies a template. -/
inductive Expr.CallFree : Expr → Prop
  | concat {left right : Expr} : CallFree left → CallFree right → CallFree (.concat left right)
  | «attribute» {name : String} : CallFree (.attribute name)
  | number {n : Int64} : CallFree (.number n)
  | text {s : String} : CallFree (.text s)
  | fixed {target : Expr} {name : String} :
    CallFree target → CallFree (.property target (.fixed name))
  | computed {target name : Expr} :
    CallFree target → CallFree name → CallFree (.property target (.computed name))
  | rendered {inner : Expr} : CallFree inner → CallFree (.rendered inner)
  | not {inner : Expr} : CallFree inner → CallFree (.not inner)
  | builtin {f : Builtin} {inner : Expr} : CallFree inner → CallFree (.builtin f inner)
  | list {items : List Expr} : (∀ e ∈ items, CallFree e) → CallFree (.list items)

structure ExprOptions.CallFree (o : ExprOptions) : Prop where
  separator {e : Expr} : o.separator = some e → e.CallFree
  null {e : Expr} : o.null = some e → e.CallFree
  format {e : Expr} : o.format = some e → e.CallFree

inductive Chunk.CallFree : Chunk → Prop
  | literal {s : String} : CallFree (.literal s)
  | newline {s : String} : CallFree (.newline s)
  | expression {e : Expr} {options : ExprOptions} {indent : Option String} :
    e.CallFree → options.CallFree → CallFree (.expression e options indent)
  | conditional {condition : Expr} {holds : Template} {otherwise : Option Template} :
    condition.CallFree → (∀ chunk ∈ holds.chunks, CallFree chunk) →
    (∀ t, otherwise = some t → ∀ chunk ∈ t.chunks, CallFree chunk) →
    CallFree (.conditional condition holds otherwise)

def Template.CallFree (t : Template) : Prop := ∀ chunk ∈ t.chunks, chunk.CallFree

namespace Halting

open Arena

/-! ## Runs that settle -/

/-- The render is at the scope `c` and has made no activations since it began with `a₀`. -/
structure Ready (a₀ : Arena) (active : List Handle) (c : Handle) (a : Arena) : Prop where
  standing : Steady.Standing (fun _ => True) true a₀ active c a
  size : a.size = a₀.size

/-- The render is back at the scope `c` and has made no activations. -/
structure Back (a₀ : Arena) (c : Handle) (a a₁ : Arena) : Prop where
  moved : Steady.Moved (fun _ => True) true a₀ c a a₁
  size : a₁.size = a.size

/-- How a run ended that was not cut off. -/
inductive Settled {α : Type} (a₀ : Arena) (c : Handle) (a : Arena) (Q : Arena → α → Prop) :
    EStateM.Result Stop RenderState α → Prop
  | ok {r : α} {s : RenderState} : Back a₀ c a s.arena → Q s.arena r → Settled a₀ c a Q (.ok r s)
  | recursion {names : List String} {s : RenderState} :
    Settled a₀ c a Q (.error (.fatal (.infiniteRecursion names)) s)
  | full {s : RenderState} : Settled a₀ c a Q (.error (.fatal .sinkFull) s)

/-- From the arena `a` on, the runs that may go deep enough come to the same. -/
def Settles {α : Type} (a₀ : Arena) (c : Handle) (a : Arena) (Q : Arena → α → Prop)
    (x : Nat → Run α) : Prop :=
  ∀ ds w, ∃ depth r, Settled a₀ c a Q r ∧ ∀ n, depth ≤ n → x n ⟨a, ds, w⟩ = r

/-- Any result. -/
def Any {α : Type} : Arena → α → Prop := fun _ _ => True

/-- A value whose handles are those of activations. -/
def Known (a : Arena) (v : Value) : Prop := ∀ x, v.Holds x → a.Knows (fun _ => True) x

variable {α β : Type} {a₀ a a₁ : Arena} {active : List Handle} {c h : Handle} {v : Value}
  {Q : Arena → α → Prop} {R : Arena → β → Prop}

theorem Ready.move (ready : Ready a₀ active c a) (back : Back a₀ c a a₁) :
    Ready a₀ active c a₁ where
  standing := ready.standing.move back.moved
  size := back.size.trans ready.size

theorem Ready.refl (ready : Ready a₀ active c a) : Back a₀ c a a := ⟨ready.standing.refl, rfl⟩

theorem Known.back (known : Known a v) (back : Back a₀ c a a₁) : Known a₁ v :=
  fun x holds => (known x holds).grow back.moved.grows

theorem settles_pure (ready : Ready a₀ active c a) {r : α} (related : Q a r) :
    Settles a₀ c a Q fun _ => pure r :=
  fun _ _ => ⟨0, _, .ok ready.refl related, fun _ _ => rfl⟩

theorem settles_bind (ready : Ready a₀ active c a) {x : Nat → Run α} {f : Nat → α → Run β}
    (first : Settles a₀ c a Q x)
    (next : ∀ a₁ r, Ready a₀ active c a₁ → Back a₀ c a a₁ → Q a₁ r →
      Settles a₀ c a₁ R fun n => f n r) :
    Settles a₀ c a R fun n => x n >>= f n := by
  intro ds w
  obtain ⟨depth, r, settled, same⟩ := first ds w
  have run (n : Nat) (le : depth ≤ n) :
      (x n >>= f n) ⟨a, ds, w⟩ = EStateM.bind (fun _ => r) (f n) ⟨a, ds, w⟩ := by
    change EStateM.bind (x n) (f n) _ = _
    simp only [EStateM.bind, same n le]
  cases settled with
  | @ok r s back related =>
    obtain ⟨deeper, r', settled, same'⟩ :=
      next s.arena r (ready.move back) back related s.diagnostics s.writer
    refine ⟨max depth deeper, r', ?_, fun n le => ?_⟩
    · cases settled with
      | ok back' related =>
        exact .ok ⟨back.moved.trans back'.moved, back'.size.trans back.size⟩ related
      | recursion => exact .recursion
      | full => exact .full
    · exact (run n (by omega)).trans (same' n (by omega))
  | recursion => exact ⟨depth, _, .recursion, run⟩
  | full => exact ⟨depth, _, .full, run⟩

/-- One step more comes to the same from the next depth on. -/
theorem settles_succ {x y : Nat → Run α} (step : ∀ n, y (n + 1) = x n)
    (settles : Settles a₀ c a Q x) : Settles a₀ c a Q y := by
  intro ds w
  obtain ⟨depth, r, settled, same⟩ := settles ds w
  refine ⟨depth + 1, r, settled, fun n le => ?_⟩
  cases n with
  | zero => omega
  | succ n =>
    rw [step]
    exact same n (by omega)

theorem settles_withArena {f : Nat → Arena → Run α} (settles : Settles a₀ c a Q fun n => f n a) :
    Settles a₀ c a Q fun n => Run.arena >>= f n :=
  fun ds w => settles ds w

theorem settles_emit (ready : Ready a₀ active c a) (s : String) :
    Settles a₀ c a Any fun _ => Run.emit s := by
  intro ds w
  refine ⟨0, Run.emit s ⟨a, ds, w⟩, ?_, fun _ _ => rfl⟩
  simp only [Run.emit]
  rcases w.write s with ⟨after, count | count⟩
  · exact .full
  · exact .ok ready.refl trivial

theorem settles_report (ready : Ready a₀ active c a) (e : TemplateError) :
    Settles a₀ c a Any fun _ => Run.report e :=
  fun _ _ => ⟨0, _, .ok ready.refl trivial, fun _ _ => rfl⟩

theorem settles_indented (indent? : Option String) {x : Nat → Run α}
    (settles : Settles a₀ c a Q x) : Settles a₀ c a Q fun n => Run.indented indent? (x n) := by
  cases indent? with
  | none => exact settles
  | some indent =>
    intro ds w
    obtain ⟨depth, r, settled, same⟩ := settles ds (w.push indent)
    have run (n : Nat) (le : depth ≤ n) : Run.indented (some indent) (x n) ⟨a, ds, w⟩ =
        Run.indented (some indent) (fun _ => r) ⟨a, ds, w⟩ := by
      simp only [Run.indented, same n le]
    refine ⟨depth, _, ?_, run⟩
    cases settled with
    | ok back related => exact .ok back related
    | recursion => exact .recursion
    | full => exact .full

theorem settles_captured (strategy : Strategy) {x : Nat → Run α} (settles : Settles a₀ c a Q x) :
    Settles a₀ c a Any fun n => Run.captured strategy (x n) := by
  intro ds w
  obtain ⟨depth, r, settled, same⟩ := settles ds (.fresh strategy)
  have run (n : Nat) (le : depth ≤ n) : Run.captured strategy (x n) ⟨a, ds, w⟩ =
      Run.captured strategy (fun _ => r) ⟨a, ds, w⟩ := by
    simp only [Run.captured, same n le]
  refine ⟨depth, _, ?_, run⟩
  cases settled with
  | ok back _ => exact .ok back trivial
  | recursion => exact .recursion
  | full => exact .full

/-! ## Values -/

section Values

variable (setting : Setting)

/-- `c` is rendered while the activations in progress are `active`, and whatever instance a value
holds, writing it there settles. -/
def Instances (setting : Setting) (a₀ : Arena) (active : List Handle) (c : Handle) : Prop :=
  ∀ a h, Ready a₀ active c a → a.contains h →
    Settles a₀ c a Any fun n => (Evaluator.ofDepth setting n).writeTemplate setting c h

/-- The separator, if there is one, settles. -/
def Separates (setting : Setting) (a₀ : Arena) (active : List Handle) (c : Handle)
    (o : WriteOptions) : Prop :=
  ∀ e, o.separator? = some e → ∀ a, Ready a₀ active c a →
    Settles a₀ c a Any fun n => (Evaluator.ofDepth setting n).evalText setting c e

variable {setting} {o : WriteOptions}

theorem settles_writeSeparator (separates : Separates setting a₀ active c o)
    (ready : Ready a₀ active c a) (pending : Bool) :
    Settles a₀ c a Any fun n =>
      (Evaluator.ofDepth setting n).writeSeparator setting c o.separator? pending := by
  unfold Evaluator.writeSeparator
  cases found : o.separator? with
  | none => exact settles_pure ready trivial
  | some e =>
    cases pending with
    | false => exact settles_pure ready trivial
    | true =>
      refine settles_bind ready (separates e found a ready) ?_
      intro a₁ s ready _ _
      exact settles_emit ready s

theorem settles_writeElements (separates : Separates setting a₀ active c o) {items : List Value}
    (each : ∀ v ∈ items, ∀ a, Ready a₀ active c a → Known a v →
      Settles a₀ c a Any fun n => (Evaluator.ofDepth setting n).write c v o)
    (ready : Ready a₀ active c a) (known : ∀ v ∈ items, Known a v) (pending : Bool) :
    Settles a₀ c a Any fun n =>
      (Evaluator.ofDepth setting n).writeElements setting c o pending items := by
  induction items generalizing a pending with
  | nil => exact settles_pure ready trivial
  | cons item rest ih =>
    have others (v : Value) (member : v ∈ rest) := each v (List.mem_cons_of_mem item member)
    have knownRest (v : Value) (member : v ∈ rest) := known v (List.mem_cons_of_mem item member)
    simp only [Evaluator.writeElements_cons]
    by_cases skipped : (item.isNull && o.null?.isNone) = true
    · simp only [if_pos skipped]
      exact ih others ready knownRest pending
    · simp only [if_neg skipped]
      refine settles_bind ready (settles_writeSeparator separates ready pending) ?_
      intro a₁ separated ready back _
      have first : Known a₁ item := (known item List.mem_cons_self).back back
      have knownRest (v : Value) (member : v ∈ rest) := (knownRest v member).back back
      refine settles_bind ready (each item List.mem_cons_self a₁ ready first) ?_
      intro a₂ written ready back _
      refine settles_withArena ?_
      refine settles_bind ready
        (ih others ready (fun v member => (knownRest v member).back back) _) ?_
      intro a₃ count ready _ _
      exact settles_pure ready trivial

/-- Every value settles as its elements do. -/
theorem settles_write (instances : Instances setting a₀ active c)
    (separates : Separates setting a₀ active c o) (v : Value) (ready : Ready a₀ active c a)
    (known : Known a v) :
    Settles a₀ c a Any fun n => (Evaluator.ofDepth setting n).write c v o := by
  induction size : sizeOf v using Nat.strong_induction_on generalizing v a with
  | _ size ih =>
    subst size
    have elements (items : List Value) (smaller : ∀ v' ∈ items, sizeOf v' < sizeOf v)
        (knownItems : ∀ v' ∈ items, Known a v') :
        Settles a₀ c a Any fun n =>
          (Evaluator.ofDepth setting n).writeElements setting c o false items :=
      settles_writeElements separates (fun v' member _ ready known =>
        ih _ (smaller v' member) v' ready known rfl) ready knownItems false
    refine settles_succ
      (x := fun n => (Evaluator.ofDepth setting n).writeStep setting c v o) (fun _ => rfl) ?_
    cases v with
    | null =>
      unfold Evaluator.writeStep
      cases o.null? with
      | none => exact settles_pure ready trivial
      | some s => exact settles_emit ready s
    | template h => exact instances a h ready (known h .template).inside
    | list items =>
      refine elements items (fun v member => ?_) fun v member x holds =>
        known x (.list member holds)
      have := List.sizeOf_lt_of_mem member
      simp only [Value.list.sizeOf_spec]
      omega
    | map entries =>
      refine elements (Table.values entries) (fun v member => ?_) fun v member x holds =>
        known x (Value.holds_of_mem_values member holds)
      obtain ⟨⟨name, w⟩, entry, rfl⟩ := List.mem_map.1 member
      have := List.sizeOf_lt_of_mem entry
      simp only [Prod.mk.sizeOf_spec] at this
      simp only [Value.map.sizeOf_spec]
      omega
    | _ => exact settles_emit ready _

theorem settles_text (instances : Instances setting a₀ active c) (ready : Ready a₀ active c a)
    (known : Known a v) :
    Settles a₀ c a Any fun n => (Evaluator.ofDepth setting n).text setting c v := by
  have separates : Separates setting a₀ active c .plain := by
    intro e none
    cases none
  have written :=
    settles_captured setting.strategy (settles_write instances separates v ready known)
  cases v with
  | text s => exact settles_pure ready trivial
  | _ => exact written

end Values

/-! ## Expressions -/

section Expressions

variable {setting : Setting}

theorem known_null : Known a .null := fun _ holds => absurd holds Value.not_holds_null

theorem known_text (s : String) : Known a (.text s) :=
  fun _ holds => absurd holds (Value.not_holds_text s)

/-- Corresponding values are known if one is, since a render in lockstep with itself has the same
values. -/
theorem known_of_same {w : Value}
    (same : (Steady.lockstep (fun _ => True) true a₀ active).Same a a v w) : Known a w := by
  obtain ⟨rfl, known⟩ := Steady.fixed_of_same same
  exact known

theorem Known.same (known : Known a v) :
    (Steady.lockstep (fun _ => True) true a₀ active).Same a a v v :=
  .same fun x holds => ⟨rfl, known x holds⟩

theorem settles_resolveAttribute (ready : Ready a₀ active c a) (name : String) :
    Settles a₀ c a Known fun _ => Run.resolveAttribute c name := by
  refine settles_withArena ?_
  cases found : a.resolve c name with
  | found v =>
    exact settles_pure ready fun x holds => ready.standing.closed.knows_of_resolve found holds
  | missing declared owner =>
    cases declared with
    | true => exact settles_pure ready known_null
    | false =>
      refine settles_bind ready (settles_report ready _) ?_
      intro a₁ _ ready _ _
      exact settles_pure ready known_null

theorem settles_resolveProperty (ready : Ready a₀ active c a) (known : Known a v) (name : String) :
    Settles a₀ c a Known fun _ => Run.resolveProperty v name := by
  unfold Run.resolveProperty
  split
  · exact settles_pure ready known_null
  · refine settles_withArena ?_
    have paired := Lockstep.property_paired (Steady.lawful trivial)
      ⟨⟨rfl, rfl⟩, ready.standing⟩ known.same name
    cases found : a.property v name with
    | some w =>
      rw [found] at paired
      cases paired with
      | some same => exact settles_pure ready (known_of_same same)
    | none =>
      refine settles_bind ready (settles_report ready _) ?_
      intro a₁ _ ready _ _
      exact settles_pure ready known_null

theorem settles_concat (instances : Instances setting a₀ active c) (ready : Ready a₀ active c a)
    {w : Value} (left : Known a v) (right : Known a w) :
    Settles a₀ c a Known fun n => (Evaluator.ofDepth setting n).concat setting c v w := by
  simp only [Lockstep.concat_eq]
  by_cases isNull : v.isNull = true
  · simp only [if_pos isNull]
    exact settles_pure ready right
  · by_cases isNull' : w.isNull = true
    · simp only [if_neg isNull, if_pos isNull']
      exact settles_pure ready left
    · simp only [if_neg isNull, if_neg isNull']
      refine settles_bind ready (settles_text instances ready left) ?_
      intro a₁ s ready back _
      refine settles_bind ready (settles_text instances ready (right.back back)) ?_
      intro a₂ t ready _ _
      exact settles_pure ready (known_text _)

theorem settles_evalItems {items : List Expr}
    (each : ∀ e ∈ items, ∀ a, Ready a₀ active c a →
      Settles a₀ c a Known fun n => (Evaluator.ofDepth setting n).eval c e)
    (ready : Ready a₀ active c a) :
    Settles a₀ c a (fun a₁ vs => ∀ v ∈ vs, Known a₁ v)
      fun n => (Evaluator.ofDepth setting n).evalItems c items := by
  induction items generalizing a with
  | nil => exact settles_pure ready fun v member => absurd member List.not_mem_nil
  | cons e rest ih =>
    refine settles_bind ready (each e List.mem_cons_self a ready) ?_
    intro a₁ v ready _ known
    refine settles_bind ready
      (ih (fun e member => each e (List.mem_cons_of_mem _ member)) ready) ?_
    intro a₂ vs ready back knownRest
    refine settles_pure ready fun w member => ?_
    rcases List.mem_append.1 member with member | member
    · exact fun x holds => known.back back x (Value.holds_of_mem_spread member holds)
    · exact knownRest w member

theorem settles_textOf (instances : Instances setting a₀ active c) {e : Expr}
    (ready : Ready a₀ active c a)
    (value : Settles a₀ c a Known fun n => (Evaluator.ofDepth setting n).eval c e) :
    Settles a₀ c a Any fun n => (Evaluator.ofDepth setting n).evalText setting c e := by
  refine settles_bind ready value ?_
  intro a₁ v ready _ known
  exact settles_text instances ready known

theorem settles_evalStep {e : Expr} {Q : Arena → Value → Prop}
    (settles : Settles a₀ c a Q fun n => (Evaluator.ofDepth setting n).evalStep setting c e) :
    Settles a₀ c a Q fun n => (Evaluator.ofDepth setting n).eval c e :=
  settles_succ (fun _ => rfl) settles

/-- Expressions without calls settle. -/
theorem settles_eval (instances : Instances setting a₀ active c) {e : Expr}
    (callFree : e.CallFree) (ready : Ready a₀ active c a) :
    Settles a₀ c a Known fun n => (Evaluator.ofDepth setting n).eval c e := by
  induction callFree generalizing a with
    refine settles_evalStep ?_
  | «attribute» => exact settles_resolveAttribute ready _
  | number => exact settles_pure ready fun _ holds => absurd holds (Value.not_holds_int _)
  | text => exact settles_pure ready (known_text _)
  | concat _ _ left right =>
    refine settles_bind ready (left ready) ?_
    intro a₁ v ready _ known
    refine settles_bind ready (right ready) ?_
    intro a₂ w ready back known'
    exact settles_concat instances ready (known.back back) known'
  | fixed _ target =>
    refine settles_bind ready (target ready) ?_
    intro a₁ v ready _ known
    exact settles_resolveProperty ready known _
  | computed _ _ target name =>
    refine settles_bind ready (target ready) ?_
    intro a₁ v ready _ known
    refine settles_bind ready (settles_textOf instances ready (name ready)) ?_
    intro a₂ s ready back _
    exact settles_resolveProperty ready (known.back back) s
  | rendered _ inner =>
    refine settles_bind ready (inner ready) ?_
    intro a₁ v ready _ known
    by_cases isNull : v.isNull = true
    · simp only [if_pos isNull]
      exact settles_pure ready known_null
    · simp only [if_neg isNull]
      refine settles_bind ready (settles_text instances ready known) ?_
      intro a₂ s ready _ _
      exact settles_pure ready (known_text s)
  | not _ inner =>
    refine settles_bind ready (inner ready) ?_
    intro a₁ v ready _ known
    exact settles_pure ready fun _ holds => absurd holds (Value.not_holds_bool _)
  | builtin _ inner =>
    refine settles_bind ready (inner ready) ?_
    intro a₁ v ready _ known
    have same : (Steady.lockstep (fun _ => True) true a₀ active).Same a₁ a₁ v v := known.same
    exact settles_pure ready (known_of_same (same.apply _))
  | list _ each =>
    have items := settles_evalItems (fun e member a ready => each e member ready) ready
    refine settles_bind ready items ?_
    intro a₁ vs ready _ known
    refine settles_pure ready fun x holds => ?_
    obtain ⟨v, member, holds⟩ := Value.holds_list_iff.1 holds
    exact known v member x holds

theorem settles_evalText (instances : Instances setting a₀ active c) {e : Expr}
    (callFree : e.CallFree) (ready : Ready a₀ active c a) :
    Settles a₀ c a Any fun n => (Evaluator.ofDepth setting n).evalText setting c e :=
  settles_textOf instances ready (settles_eval instances callFree ready)

end Expressions


/-! ## Chunks -/

section Chunks

variable {setting : Setting}

theorem settles_evalOption (instances : Instances setting a₀ active c) {e? : Option Expr}
    (callFree : ∀ e, e? = some e → e.CallFree) (ready : Ready a₀ active c a) :
    Settles a₀ c a Any fun n => (Evaluator.ofDepth setting n).evalOption setting c e? := by
  cases e? with
  | none => exact settles_pure ready trivial
  | some e =>
    refine settles_bind ready (settles_evalText instances (callFree e rfl) ready) ?_
    intro a₁ s ready _ _
    exact settles_pure ready trivial

/-- The options of a chunk settle, and so does its separator whenever it is written. -/
theorem settles_writeOptions (instances : Instances setting a₀ active c) {o : ExprOptions}
    (callFree : o.CallFree) (ready : Ready a₀ active c a) :
    Settles a₀ c a (fun _ written => Separates setting a₀ active c written)
      fun n => (Evaluator.ofDepth setting n).writeOptions setting c o := by
  refine settles_bind ready (settles_evalOption instances (fun _ => callFree.null) ready) ?_
  intro a₁ null? ready _ _
  refine settles_bind ready (settles_evalOption instances (fun _ => callFree.format) ready) ?_
  intro a₂ format? ready _ _
  exact settles_pure ready fun e found a ready =>
    settles_evalText instances (callFree.separator found) ready

/-- Chunks settle if each of them does. -/
theorem settles_render {chunks : List Chunk}
    (each : ∀ chunk ∈ chunks, ∀ a, Ready a₀ active c a →
      Settles a₀ c a Any fun n => (Evaluator.ofDepth setting n).renderChunk setting c chunk)
    (ready : Ready a₀ active c a) :
    Settles a₀ c a Any fun n => (Evaluator.ofDepth setting n).render c chunks := by
  refine settles_succ
    (x := fun n => (Evaluator.ofDepth setting n).renderStep setting c chunks) (fun _ => rfl) ?_
  induction chunks generalizing a with
  | nil => exact settles_pure ready trivial
  | cons chunk rest ih =>
    refine settles_bind ready (each chunk List.mem_cons_self a ready) ?_
    intro a₁ written ready _ _
    refine settles_bind ready
      (ih (fun chunk member => each chunk (List.mem_cons_of_mem _ member)) ready) ?_
    intro a₂ others ready _ _
    exact settles_pure ready trivial

theorem settles_renderChunk (instances : Instances setting a₀ active c) {chunk : Chunk}
    (callFree : chunk.CallFree) (ready : Ready a₀ active c a) :
    Settles a₀ c a Any fun n => (Evaluator.ofDepth setting n).renderChunk setting c chunk := by
  induction callFree generalizing a with
  | literal => exact settles_emit ready _
  | newline => exact settles_emit ready _
  | expression callFree options =>
    refine settles_bind ready (settles_eval instances callFree ready) ?_
    intro a₁ v ready _ known
    refine settles_bind ready (settles_writeOptions instances options ready) ?_
    intro a₂ o ready back separates
    exact settles_indented _ (settles_write instances separates v ready (known.back back))
  | @conditional condition holds otherwise callFree _ _ ih ih' =>
    refine settles_bind ready (settles_eval instances callFree ready) ?_
    intro a₁ v ready _ _
    by_cases truthy : v.truthy = true
    · simp only [if_pos truthy]
      exact settles_render (fun chunk member a ready => ih chunk member ready) ready
    · simp only [if_neg truthy]
      cases otherwise with
      | none => exact settles_pure ready trivial
      | some t =>
        exact settles_render (fun chunk member a ready => ih' t rfl chunk member ready) ready

end Chunks

/-! ## Instances -/

section Instances

variable {setting : Setting}

/-- There are no more activations in progress than there are activations. -/
theorem length_le (active : Active) (inside : ∀ h ∈ active.handles, a.contains h) :
    active.handles.length ≤ a.size := by
  have distinct : (active.handles.map Handle.index).Nodup := by
    refine active.distinct.map fun x y same => ?_
    cases x
    cases y
    simp_all
  have within : active.handles.map Handle.index ⊆ List.range a.size := by
    intro i member
    obtain ⟨h, active, rfl⟩ := List.mem_map.1 member
    exact List.mem_range.2 (inside h active)
  simpa using (List.subperm_of_subset distinct within).length_le

theorem settles_refused (isStrict : setting.strict = true) (ready : Ready a₀ active c a)
    (inside : a.contains h) (refused : a.Reaches c h) :
    Settles a₀ c a Any fun n => (Evaluator.ofDepth setting n).writeTemplate setting c h := by
  intro ds w
  have run (n : Nat) : (Evaluator.ofDepth setting n).writeTemplate setting c h ⟨a, ds, w⟩ =
      .error (.fatal (.infiniteRecursion ((a.setEnclosing h (some c)).trace h)))
        ⟨a.setEnclosing h (some c), ds, w⟩ := by
    rw [Evaluator.writeTemplate_run, isStrict,
      (ready.standing.refused_iff ⟨inside, trivial⟩).2 refused]
    rfl
  exact ⟨0, _, .recursion, fun n _ => run n⟩

theorem settles_entered (ready : Ready a₀ active c a) (inside : a.contains h)
    (apart : ¬ a.Reaches c h)
    (chunks : Ready a₀ (h :: active) h (a.setEnclosing h (some c)) →
      Settles a₀ h (a.setEnclosing h (some c)) Any fun n =>
        (Evaluator.ofDepth setting n).render h
          ((a.setEnclosing h (some c)).get h).template.chunks) :
    Settles a₀ c a Any fun n => (Evaluator.ofDepth setting n).writeTemplate setting c h := by
  intro ds w
  have knows : a.Knows (fun _ => True) h := ⟨inside, trivial⟩
  have allowed : (a.setEnclosing h (some c)).isSelfEnclosed h = false := by
    rwa [← Bool.not_eq_true, ready.standing.refused_iff knows]
  obtain ⟨standing, wider⟩ := ready.standing.enter knows fun _ => apart
  obtain ⟨depth, r, settled, same⟩ := chunks ⟨standing, by simpa using ready.size⟩ ds w
  have run (n : Nat) (le : depth ≤ n) :
      (Evaluator.ofDepth setting n).writeTemplate setting c h ⟨a, ds, w⟩ = r := by
    rw [Evaluator.writeTemplate_run, allowed, Bool.and_false]
    exact same n le
  refine ⟨depth, r, ?_, run⟩
  cases settled with
  | ok back _ => exact .ok ⟨wider _ back.moved, by simpa using back.size⟩ trivial
  | recursion => exact .recursion
  | full => exact .full

/-- By induction on how many activations are not in progress: one that is entered was not. -/
theorem instances_settle (isStrict : setting.strict = true)
    (callFree : ∀ h, a₀.contains h → (a₀.get h).template.CallFree) (active : Active) (c : Handle) :
    Instances setting a₀ active.handles c := by
  induction left : a₀.size - active.handles.length using Nat.strong_induction_on
    generalizing active c with
  | _ left ih =>
    subst left
    intro a h ready inside
    by_cases refused : a.Reaches c h
    · exact settles_refused isStrict ready inside refused
    · refine settles_entered ready inside refused fun inner => ?_
      have fresh : h ∉ active.handles :=
        fun member => refused (ready.standing.around rfl h member)
      have room : (active.enter h fresh).handles.length ≤ a₀.size := by
        refine length_le _ fun x member => ?_
        have := contains_of_reaches inner.standing.closed.links inner.standing.inside
          (inner.standing.around rfl x member)
        rwa [contains, inner.size] at this
      have deeper : Instances setting a₀ (active.enter h fresh).handles h :=
        ih _ (by simp only [Active.enter, List.length_cons] at room ⊢; omega) _ h rfl
      have old : a₀.contains h := by
        rwa [contains, ready.size] at inside
      rw [inner.standing.keeps.template old]
      exact settles_render (fun chunk member a ready =>
        settles_renderChunk deeper (callFree h old chunk member) ready) inner

end Instances

end Halting

/-- What a strict render comes to that is not cut off. -/
inductive Ends : Except Stop Rendered → Prop
  | ok {r : Rendered} : Ends (.ok r)
  | recursion {names : List String} : Ends (.error (.fatal (.infiniteRecursion names)))
  | full : Ends (.error (.fatal .sinkFull))

/-- Strict renders of templates without calls end. -/
theorem render_ends_of_callFree {setting : Setting} (isStrict : setting.strict = true) {a : Arena}
    (inRange : a.InRange) {root : Handle} (inside : a.contains root)
    (callFree : ∀ h, a.contains h → (a.get h).template.CallFree) (w : Writer) :
    ∃ depth, Ends (setting.renderWithin depth a root w).result ∧
      ∀ n, depth ≤ n → setting.renderWithin n a root w = setting.renderWithin depth a root w := by
  have standing : Steady.Standing (fun _ => True) true a [root] root a := by
    refine ⟨inRange, .refl a, inside, fun _ h member => ?_⟩
    rw [List.mem_singleton.1 member]
  have instances := Halting.instances_settle isStrict callFree (.only root) root
  obtain ⟨depth, r, settled, same⟩ := Halting.settles_render
    (fun chunk member b ready =>
      Halting.settles_renderChunk instances (callFree root inside chunk member) ready)
    ⟨standing, rfl⟩ [] w
  refine ⟨depth, ?_, fun n le => ?_⟩
  · simp only [Setting.renderWithin, same depth (Nat.le_refl _)]
    cases settled with
    | ok => exact .ok
    | recursion => exact .recursion
    | full => exact .full
  · simp only [Setting.renderWithin, same n le, same depth (Nat.le_refl _)]

/-- A strict render enters no activation that is in progress: it is the one that keeps the
activations in progress on a stack without repetitions, and stops with an infinite recursion where
one of them would be written again. So it ends if no template of the arena makes new instances. -/
theorem strict_render_enters_once {setting : Setting} (isStrict : setting.strict = true)
    {a : Arena} (inRange : a.InRange) {root : Handle} (inside : a.contains root) (w : Writer) :
    (∀ depth, setting.renderWithin depth a root w = setting.renderGuarded depth a root w) ∧
    ((∀ h, a.contains h → (a.get h).template.CallFree) →
      ∃ depth, Ends (setting.renderWithin depth a root w).result ∧
        ∀ n, depth ≤ n →
          setting.renderWithin n a root w = setting.renderWithin depth a root w) :=
  ⟨fun depth => render_eq_guarded isStrict inRange inside depth w,
    fun callFree => render_ends_of_callFree isStrict inRange inside callFree w⟩

/-- Two instances that write each other. -/
def Halting.crossed : Arena :=
  let t := Template.plain "t" [.expression (.attribute "x") .none none]
  let a := (Arena.empty.instantiate t).2.instantiate t
  (a.2.setAttribute ⟨0⟩ "x" (.template ⟨1⟩)).setAttribute ⟨1⟩ "x" (.template ⟨0⟩)

/-- The first of them is not written again inside the second: the render stops with its trace. -/
theorem crossed_render_ends :
    Setting.standardStrict.renderWithin 5 Halting.crossed ⟨0⟩ (.fresh .autoIndent) =
        Setting.standardStrict.renderGuarded 5 Halting.crossed ⟨0⟩ (.fresh .autoIndent) ∧
      (Setting.standardStrict.renderGuarded 5 Halting.crossed ⟨0⟩ (.fresh .autoIndent)).result =
        .error (.fatal (.infiniteRecursion ["t", "t", "t"])) ∧
      ∃ depth, Ends (Setting.standardStrict.renderWithin depth Halting.crossed ⟨0⟩
        (.fresh .autoIndent)).result := by
  have inRange : Halting.crossed.InRange := by
    refine Arena.Closed.setAttribute (Arena.Closed.setAttribute
      ((Arena.closed_empty.instantiate _).instantiate _) _ _ ?_) _ _ ?_
    all_goals
      intro x holds
      obtain rfl := Value.holds_template_iff.1 holds
      exact ⟨by decide, trivial⟩
  have callFree (h : Handle) (inside : Halting.crossed.contains h) :
      (Halting.crossed.get h).template.CallFree := by
    have lt : h.index < 2 := inside
    rcases h with ⟨_ | _ | n⟩
    · intro chunk member
      obtain rfl := List.mem_singleton.1 member
      exact .expression .attribute ⟨nofun, nofun, nofun⟩
    · intro chunk member
      obtain rfl := List.mem_singleton.1 member
      exact .expression .attribute ⟨nofun, nofun, nofun⟩
    · exact absurd lt (by simp)
  have isStrict : Setting.standardStrict.strict = true := rfl
  have inside : Halting.crossed.contains ⟨0⟩ := by decide
  obtain ⟨guarded, ends⟩ := strict_render_enters_once isStrict inRange inside
    (.fresh .autoIndent)
  obtain ⟨depth, ended, -⟩ := ends callFree
  refine ⟨guarded 5, ?_, depth, ended⟩
  rw [← guarded]
  decide +kernel

end Stencil
