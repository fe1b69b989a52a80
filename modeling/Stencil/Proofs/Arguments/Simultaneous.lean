import Mathlib.Data.List.Forall2
import Stencil.Proofs.Arguments.Bindings
import Stencil.Proofs.Arguments.Names
/-!
# Arguments bound at once

Named arguments do not see each other, so a call may swap the values of two names. Where the
expressions make neither instances nor texts, their order does not matter either: such expressions
leave the arena as it is, and come to values that the callee has no part in.
-/
namespace Stencil

/-- Entries of two names may be entered in either order. -/
theorem Table.insert_comm {α : Type} {m n : String} (apart : m ≠ n) (a b : α) (t : Table α) :
    (t.insert m a).insert n b = (t.insert n b).insert m a := by
  have trans (x y z : String) : x < y → y < z → x < z := String.lt_trans
  have irrefl (x : String) : ¬ x < x := String.lt_irrefl x
  have total : m < n ∨ n < m := by
    by_cases lt : m < n
    · exact .inl lt
    · exact .inr (String.not_le.1 fun le => apart (String.le_antisymm le (String.not_lt.1 lt)))
  induction t with
  | nil => grind [insert]
  | cons entry rest ih => grind [insert]

/-- The expression makes no instances and no texts: it looks attributes and properties up, and takes
their values apart and puts them into lists. -/
inductive Expr.Simple : Expr → Prop
  | attribute (name : String) : Simple (.attribute name)
  | number (n : Int64) : Simple (.number n)
  | text (s : String) : Simple (.text s)
  | property {target : Expr} (name : String) :
    Simple target → Simple (.property target (.fixed name))
  | not {inner : Expr} : Simple inner → Simple (.not inner)
  | builtin (f : Builtin) {inner : Expr} : Simple inner → Simple (.builtin f inner)
  | list {items : List Expr} : (∀ e ∈ items, Simple e) → Simple (.list items)

namespace Arena

/-- The arenas differ in one activation at most. -/
structure Besides (h : Handle) (a b : Arena) : Prop where
  size : b.size = a.size
  get {x : Handle} : x ≠ h → b.get x = a.get x

variable {a b : Arena} {caller callee scope h : Handle} {v w : Value} {name : String}

theorem Besides.setArgument (besides : Besides h a b) (name : String) (v : Value) :
    Besides h a (b.setArgument h name v) where
  size := (size_modify ..).trans besides.size
  get other := by
    rw [get_setArgument, if_neg fun hit => other hit.1]
    exact besides.get other

theorem Besides.resolve_eq (besides : Besides callee a b)
    (calling : a.Calling caller callee scope) (name : String) :
    b.resolve scope name = a.resolve scope name :=
  calling.resolve_eq (Nat.le_of_eq besides.size.symm)
    (fun _ _ other => besides.get other ▸ .refl _) name

/-- A value that does not hold the handle shows nothing of its activation. -/
theorem Besides.property_eq (besides : Besides h a b) (apart : ¬ v.Holds h) (name : String) :
    b.property v name = a.property v name := by
  cases v with
  | template x =>
    have other : x ≠ h := fun same => apart (Value.holds_template_iff.2 same)
    exact congrArg (Activation.property · name) (besides.get other)
  | _ => rfl

theorem Unheld.property (unheld : a.Unheld h) (apart : ¬ v.Holds h)
    (found : a.property v name = some w) : ¬ w.Holds h := by
  intro holds
  cases v with
  | template x => exact unheld x w (Activation.stores_of_property found) holds
  | aggregate fields => exact apart (.aggregate (Table.mem_of_find? found) holds)
  | map entries => exact apart (Value.holds_of_mapProperty found holds)
  | object o => exact apart (.object found holds)
  | _ => cases found

theorem Unheld.resolve (unheld : a.Unheld h) (found : a.resolve scope name = .found v) :
    ¬ v.Holds h := by
  obtain ⟨x, stores⟩ := stores_of_resolveFrom found
  exact unheld x v stores

end Arena

namespace Evaluator

open Arena

variable {α β : Type} {setting : Setting} {a : Arena} {caller callee scope : Handle}
  {t : Template} {e : Expr} {v : Value} {s : RenderState}

/-! ## Expressions that leave the arena as it is -/

/-- From some depth on the runs come to `r`, report something perhaps and do nothing else, wherever
the arena is `a` but for the activation `h`. -/
def Settles (a : Arena) (h : Handle) (x : Nat → Run α) (r : α) : Prop :=
  ∃ least, ∀ depth ≥ least, ∀ s : RenderState, Besides h a s.arena →
    ∃ reports, x depth s = .ok r { s with diagnostics := reports }

theorem Settles.pure (r : α) : Settles a callee (fun _ => Pure.pure r) r :=
  ⟨0, fun _ _ s _ => ⟨s.diagnostics, rfl⟩⟩

theorem Settles.bind {x : Nat → Run α} {r : α} {f : Nat → α → Run β} {q : β}
    (first : Settles a callee x r) (next : Settles a callee (fun depth => f depth r) q) :
    Settles a callee (fun depth => x depth >>= f depth) q := by
  obtain ⟨least, begins⟩ := first
  obtain ⟨least', ends⟩ := next
  refine ⟨max least least', fun depth enough s besides => ?_⟩
  obtain ⟨reports, ran⟩ := begins depth (Nat.le_trans (Nat.le_max_left ..) enough) s besides
  obtain ⟨reports', ran'⟩ := ends depth (Nat.le_trans (Nat.le_max_right ..) enough)
    { s with diagnostics := reports } besides
  exact ⟨reports', (Run.bind_of_ok _ ran).trans ran'⟩

theorem Settles.step {scope : Handle}
    (below : Settles a callee (fun depth => evalStep setting (ofDepth setting depth) scope e) v) :
    Settles a callee (fun depth => (ofDepth setting depth).eval scope e) v := by
  obtain ⟨least, ends⟩ := below
  refine ⟨least + 1, fun depth enough s besides => ?_⟩
  obtain ⟨depth, rfl⟩ : ∃ k, depth = k + 1 := ⟨depth - 1, by omega⟩
  exact ends depth (Nat.le_of_succ_le_succ enough) s besides

theorem settles_withArena {f : Arena → Run α} {r : α}
    (each : ∀ s : RenderState, Besides callee a s.arena →
      ∃ reports, f s.arena s = .ok r { s with diagnostics := reports }) :
    Settles a callee (fun _ => Run.arena >>= f) r :=
  ⟨0, fun _ _ s besides => each s besides⟩

/-- From some depth on the expression comes to the value, in which the callee has no part. -/
def Gets (setting : Setting) (a : Arena) (callee scope : Handle) (e : Expr) (v : Value) : Prop :=
  ¬ v.Holds callee ∧ Settles a callee (fun depth => (ofDepth setting depth).eval scope e) v

section Values

variable (calling : a.Calling caller callee scope)
include calling

theorem settles_resolveAttribute (name : String) :
    ∃ v, ¬ v.Holds callee ∧ Settles a callee (fun _ => Run.resolveAttribute scope name) v := by
  cases resolved : a.resolve scope name with
  | found v =>
    refine ⟨v, calling.unheld.resolve resolved, settles_withArena fun s besides => ?_⟩
    simp only [besides.resolve_eq calling, resolved]
    exact ⟨s.diagnostics, rfl⟩
  | missing declared owner =>
    refine ⟨.null, Value.not_holds_null, settles_withArena fun s besides => ?_⟩
    simp only [besides.resolve_eq calling, resolved]
    cases declared with
    | true => exact ⟨s.diagnostics, rfl⟩
    | false => exact ⟨_, rfl⟩

theorem settles_resolveProperty (apart : ¬ v.Holds callee) (name : String) :
    ∃ w, ¬ w.Holds callee ∧ Settles a callee (fun _ => Run.resolveProperty v name) w := by
  unfold Run.resolveProperty
  split
  · exact ⟨.null, Value.not_holds_null, .pure _⟩
  · cases found : a.property v name with
    | some w =>
      refine ⟨w, calling.unheld.property apart found, settles_withArena fun s besides => ?_⟩
      simp only [besides.property_eq apart, found]
      exact ⟨s.diagnostics, rfl⟩
    | none =>
      refine ⟨.null, Value.not_holds_null, settles_withArena fun s besides => ?_⟩
      simp only [besides.property_eq apart, found]
      exact ⟨_, rfl⟩

omit calling in
theorem settles_evalItems {items : List Expr}
    (each : ∀ e ∈ items, ∃ v, Gets setting a callee scope e v) :
    ∃ vs, (∀ v ∈ vs, ¬ v.Holds callee) ∧
      Settles a callee (fun depth => (ofDepth setting depth).evalItems scope items) vs := by
  induction items with
  | nil => exact ⟨[], List.forall_mem_nil _, .pure []⟩
  | cons e rest ih =>
    obtain ⟨v, apart, settles⟩ := each e List.mem_cons_self
    obtain ⟨vs, aparts, others⟩ := ih fun e member => each e (List.mem_cons_of_mem _ member)
    refine ⟨spread v ++ vs, fun w member holds => ?_, settles.bind (others.bind (.pure _))⟩
    rcases List.mem_append.1 member with member | member
    · exact apart (Value.holds_of_mem_spread member holds)
    · exact aparts w member holds

theorem gets_of_simple (setting : Setting) (simple : e.Simple) :
    ∃ v, Gets setting a callee scope e v := by
  induction simple with
  | «attribute» name =>
    obtain ⟨v, apart, settles⟩ := settles_resolveAttribute calling name
    exact ⟨v, apart, .step settles⟩
  | number n => exact ⟨.int n, Value.not_holds_int n, .step (.pure _)⟩
  | text s => exact ⟨.text s, Value.not_holds_text s, .step (.pure _)⟩
  | property name _ ih =>
    obtain ⟨v, apart, target⟩ := ih
    obtain ⟨w, apart, settles⟩ := settles_resolveProperty calling apart name
    exact ⟨w, apart, .step (target.bind settles)⟩
  | not _ ih =>
    obtain ⟨v, -, inner⟩ := ih
    exact ⟨_, Value.not_holds_bool _, .step (inner.bind (.pure _))⟩
  | builtin f _ ih =>
    obtain ⟨v, apart, inner⟩ := ih
    have applied := (Withheld.paired_of_unheld apart).apply f
    refine ⟨f.apply v, fun holds => ?_, .step (inner.bind (.pure _))⟩
    exact (Value.Paired.fixed applied).2 callee holds rfl
  | list _ ih =>
    obtain ⟨vs, aparts, settles⟩ := settles_evalItems ih
    refine ⟨.list vs, fun holds => ?_, .step (settles.bind (.pure _))⟩
    obtain ⟨w, member, holds⟩ := Value.holds_list_iff.1 holds
    exact aparts w member holds

end Values

/-! ## Lists of arguments in any order -/

/-- The names are those of the bindings, and the values what their expressions come to. -/
def GetsAll (setting : Setting) (a : Arena) (callee scope : Handle) :
    List (String × Expr) → List (String × Value) → Prop :=
  List.Forall₂ fun binding result =>
    result.1 = binding.1 ∧ Gets setting a callee scope binding.2 result.2

theorem GetsAll.names {bindings : List (String × Expr)} {results : List (String × Value)}
    (all : GetsAll setting a callee scope bindings results) :
    results.map Prod.fst = bindings.map Prod.fst := by
  induction all with
  | nil => rfl
  | cons first _ ih => rw [List.map_cons, List.map_cons, first.1, ih]

/-- Results of different names may be entered in any order. -/
theorem entered_perm {results results' : List (String × Value)} (perm : results.Perm results')
    (distinct : (results.map Prod.fst).Nodup) (given : Table Value) :
    entered given results = entered given results' := by
  refine perm.foldl_eq' (fun x member y member' arguments => ?_) given
  by_cases same : x.1 = y.1
  · rw [List.inj_on_of_nodup_map distinct member member' same]
  · cases x.2.isNull with
    | true => rfl
    | false =>
      cases y.2.isNull with
      | true => rfl
      | false => exact Table.insert_comm same x.2 y.2 arguments

theorem exists_getsAll (calling : a.Calling caller callee scope) (setting : Setting)
    {bindings : List (String × Expr)} (simple : ∀ binding ∈ bindings, binding.2.Simple) :
    ∃ results, GetsAll setting a callee scope bindings results := by
  induction bindings with
  | nil => exact ⟨[], .nil⟩
  | cons binding rest ih =>
    obtain ⟨v, gets⟩ := gets_of_simple calling setting (simple binding List.mem_cons_self)
    obtain ⟨results, all⟩ := ih fun other member => simple other (List.mem_cons_of_mem _ member)
    exact ⟨(binding.1, v) :: results, .cons ⟨rfl, gets⟩ all⟩

theorem besides_giving (besides : Besides callee a s.arena) (name : String) (v : Value) :
    Besides callee a (s.giving callee name v).arena := by
  unfold RenderState.giving
  split
  · exact besides
  · exact besides.setArgument name v

theorem arguments_giving (inside : s.arena.contains callee) (name : String) (v : Value) :
    ((s.giving callee name v).arena.get callee).arguments =
      entered (s.arena.get callee).arguments [(name, v)] := by
  cases isNull : v.isNull with
  | true => simp [RenderState.giving, entered, isNull]
  | false => simp [RenderState.giving, entered, isNull, get_setArgument, inside]

theorem bindNamed_of_getsAll (inside : a.contains callee) (t : Template)
    {bindings : List (String × Expr)} {results : List (String × Value)}
    (all : GetsAll setting a callee scope bindings results) :
    ∃ least, ∀ depth ≥ least, ∀ s : RenderState, Besides callee a s.arena →
      ∃ u, (ofDepth setting depth).bindNamed callee scope t bindings s = .ok () u ∧
        (u.arena.get callee).arguments = entered (s.arena.get callee).arguments
          (results.filter fun result => t.accepts result.1) := by
  induction all with
  | nil => exact ⟨0, fun _ _ s _ => ⟨s, rfl, rfl⟩⟩
  | @cons binding result rest others first _ ih =>
    obtain ⟨_, e⟩ := binding
    obtain ⟨name, v⟩ := result
    obtain ⟨rfl, -, least, evaluates⟩ := first
    obtain ⟨least', goesOn⟩ := ih
    refine ⟨max least least', fun depth enough s besides => ?_⟩
    have later := goesOn depth (Nat.le_trans (Nat.le_max_right ..) enough)
    cases accepted : t.accepts name with
    | false =>
      rw [bindNamed_rejected accepted, List.filter_cons_of_neg (by simp [accepted])]
      exact later _ besides
    | true =>
      obtain ⟨reports, evaluated⟩ :=
        evaluates depth (Nat.le_trans (Nat.le_max_left ..) enough) s besides
      rw [bindNamed_assigned accepted rest evaluated, List.filter_cons_of_pos (by simp [accepted])]
      let s₁ : RenderState := { s with diagnostics := reports }
      have inside : s₁.arena.contains callee :=
        contains_of_size_le (Nat.le_of_eq besides.size.symm) inside
      obtain ⟨u, ended, bound⟩ := later _ (besides_giving (s := s₁) besides name v)
      refine ⟨u, ended, bound.trans ?_⟩
      rw [arguments_giving inside]
      rfl

/-- A list of such arguments is evaluated to its end, and the callee is as it was but for them. -/
theorem bindArguments_of_getsAll (setting : Setting) (awaits : s.arena.Awaits caller callee)
    {bindings : List (String × Expr)} {results : List (String × Value)} :
    let t := (s.arena.get callee).template
    let given := (s.arena.get callee).arguments
    let opened := s.arena.argumentScope caller given
    GetsAll setting opened.2 callee opened.1 bindings results →
    ∃ least, ∀ depth ≥ least, ∃ u,
      (ofDepth setting depth).bindArguments caller callee (.named bindings) s = .ok () u ∧
      u.arena.get callee = { s.arena.get callee with
        arguments := entered given (results.filter fun result => t.accepts result.1) } := by
  intro t given opened all
  have calling : opened.2.Calling caller callee opened.1 := awaits.calling
  have kept : opened.2.get callee = s.arena.get callee := get_push_of_contains awaits.inside _
  obtain ⟨least, ends⟩ := bindNamed_of_getsAll calling.inside t all
  refine ⟨least, fun depth enough => ?_⟩
  obtain ⟨u, ended, arguments⟩ :=
    ends depth enough { s with arena := opened.2 } ⟨rfl, fun _ => rfl⟩
  obtain ⟨_, -, gives⟩ := assignsApart_bindArguments setting depth awaits bindings
  have callee := (gives u ended).2.callee
  rw [callee] at arguments
  rw [kept] at arguments
  refine ⟨u, ended, callee.trans ?_⟩
  exact congrArg (fun arguments => { s.arena.get _ with arguments }) arguments

end Evaluator

open Evaluator

/-- Named arguments are bound at once. While they are evaluated, a name means what the callee had
been given before the list and otherwise what it means in the caller. In the end the callee has been
given the results that are not null, for the names that its template takes. Where all expressions are
simple, any other order of the list comes to the same; the grammar reads no name twice. -/
theorem named_arguments_bound_at_once (setting : Setting) {caller callee : Handle}
    {s : RenderState} (awaits : s.arena.Awaits caller callee) (bindings : List (String × Expr)) :
    let t := (s.arena.get callee).template
    let given := (s.arena.get callee).arguments
    let opened := s.arena.argumentScope caller given
    let run (depth : Nat) (bindings : List (String × Expr)) :=
      (Evaluator.ofDepth setting depth).bindArguments caller callee (.named bindings) s
    (∀ depth, ∃ results,
      (Evaluator.ofDepth setting depth).Assigns t callee opened.1
        (fun b => ∀ name, b.resolve opened.1 name = s.arena.resolveBehind given caller name)
        bindings { s with arena := opened.2 } results (run depth bindings) ∧
      ∀ u, run depth bindings = .ok () u →
        results.map Prod.fst = (bindings.map Prod.fst).filter t.accepts ∧
        u.arena.get callee = { s.arena.get callee with arguments := entered given results }) ∧
    (Grammar.Distinct bindings → (∀ binding ∈ bindings, binding.2.Simple) →
      ∀ other, other.Perm bindings → ∃ least, ∀ depth ≥ least, ∃ u u',
        run depth bindings = .ok () u ∧ run depth other = .ok () u' ∧
        u'.arena.get callee = u.arena.get callee) := by
  intro t given opened run
  have bound (depth : Nat) := assignsApart_bindArguments setting depth awaits
  constructor
  case left =>
    intro depth
    obtain ⟨results, assigns, gives⟩ := bound depth bindings
    refine ⟨results, assigns, fun u ended => ?_⟩
    obtain ⟨names, supplied⟩ := gives u ended
    exact ⟨names, supplied.callee⟩
  case right =>
    intro distinct simple other perm
    have calling : opened.2.Calling caller callee opened.1 := awaits.calling
    obtain ⟨results, all⟩ := exists_getsAll calling setting simple
    obtain ⟨results', all', perm'⟩ := List.perm_comp_forall₂ perm all
    obtain ⟨least, ends⟩ := bindArguments_of_getsAll setting awaits all
    obtain ⟨least', ends'⟩ := bindArguments_of_getsAll setting awaits all'
    refine ⟨max least least', fun depth enough => ?_⟩
    obtain ⟨u, ended, left⟩ := ends depth (Nat.le_trans (Nat.le_max_left ..) enough)
    obtain ⟨u', ended', right⟩ := ends' depth (Nat.le_trans (Nat.le_max_right ..) enough)
    have names : (results'.map Prod.fst).Nodup :=
      (perm'.map Prod.fst).nodup_iff.2 (all.names.symm ▸ distinct)
    have accepted : ((results'.filter fun result => t.accepts result.1).map Prod.fst).Nodup :=
      names.sublist (List.filter_sublist.map Prod.fst)
    refine ⟨u, u', ended, ended', ?_⟩
    rw [left, right, entered_perm (perm'.filter _) accepted]

/-- A page with two attributes, which calls a template that has parameters of their names. -/
def Arena.pairing : Arena :=
  let page := (Arena.empty.instantiate (.plain "page" [])).2
  let page := (page.setAttribute ⟨0⟩ "a" (.text "x")).setAttribute ⟨0⟩ "b" (.text "y")
  (page.embed ⟨0⟩ ⟨"pair", ["a", "b"], [], false, none⟩).2

/-- A call swaps two names, and may name them in either order. -/
theorem swapped_arguments :
    let s : RenderState := ⟨Arena.pairing, [], .fresh .noIndent⟩
    let swap : List (String × Expr) :=
      [("a", .attribute "b"), ("c", .attribute "a"), ("b", .attribute "a")]
    let run (depth : Nat) (bindings : List (String × Expr)) :=
      (Evaluator.ofDepth .standard depth).bindArguments ⟨0⟩ ⟨1⟩ (.named bindings) s
    s.arena.Awaits ⟨0⟩ ⟨1⟩ ∧
    (∃ u results, run 1 swap = .ok () u ∧ u.diagnostics = [.unknownParameter "pair" "c"] ∧
      results.map Prod.fst = ["a", "b"] ∧
      (u.arena.get ⟨1⟩).arguments = entered .empty results ∧
      (u.arena.get ⟨1⟩).arguments = [("a", .text "y"), ("b", .text "x")]) ∧
    ∃ depth u u', run depth swap = .ok () u ∧ run depth swap.reverse = .ok () u' ∧
      u'.arena.get ⟨1⟩ = u.arena.get ⟨1⟩ := by
  intro s swap run
  have closed : ((Arena.empty.instantiate (.plain "page" [])).2.setAttribute ⟨0⟩ "a"
      (.text "x")).Closed IsInstance :=
    (Arena.closed_empty.instantiate _).setAttribute _ _ fun _ holds =>
      absurd holds (Value.not_holds_text _)
  have closed := closed.setAttribute ⟨0⟩ "b" (v := .text "y") fun _ holds =>
    absurd holds (Value.not_holds_text _)
  have awaits : s.arena.Awaits ⟨0⟩ ⟨1⟩ := closed.awaits_embed (by decide) _
  obtain ⟨bound, permuted⟩ := named_arguments_bound_at_once .standard awaits swap
  have simple : ∀ binding ∈ swap, binding.2.Simple := by simp [swap, Expr.Simple.attribute]
  obtain ⟨results, -, gives⟩ := bound 1
  obtain ⟨names, callee⟩ := gives _ rfl
  have distinct : Grammar.Distinct swap := by simp [Grammar.Distinct, swap]
  obtain ⟨least, ends⟩ := permuted distinct simple swap.reverse swap.reverse_perm
  exact ⟨awaits, ⟨_, results, rfl, rfl, names, congrArg Activation.arguments callee, rfl⟩,
    least, ends least (Nat.le_refl _)⟩

end Stencil
