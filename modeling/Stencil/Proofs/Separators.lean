import Stencil.Proofs.Appending
import Stencil.Proofs.Deeper
import Stencil.Proofs.Sequence
/-!
# Separators

Lists and maps inside each other are written like the one list of their leaves. A list begins
without a separator whatever comes before it, and the separator before it is that of the list around
it; so there is one between each two leaves, on whichever level their ways part.
-/
namespace Stencil

/-! ## Leaves -/

namespace Value

mutual

/-- The values that are written one by one: those in lists and maps of any depth, in a map in the
order of its keys. -/
def leaves : Value → List Value
  | .list items => itemLeaves items
  | .map entries => entryLeaves entries
  | v => [v]

def itemLeaves : List Value → List Value
  | [] => []
  | v :: rest => leaves v ++ itemLeaves rest

def entryLeaves : List (String × Value) → List Value
  | [] => []
  | (_, v) :: rest => leaves v ++ entryLeaves rest

end

/-- Lists and maps inside each other, none of them empty. The leaves are scalars, or nulls if these
have a text. -/
inductive Branches (nulls : Bool) : Value → Prop
  | leaf {v : Value} :
    v.isMultiValued = false → (∀ h, v ≠ .template h) → (v.isNull = true → nulls = true) →
    Branches nulls v
  | list {items : List Value} :
    items ≠ [] → (∀ v ∈ items, Branches nulls v) → Branches nulls (.list items)
  | map {entries : List (String × Value)} :
    entries ≠ [] → (∀ v ∈ Table.values entries, Branches nulls v) → Branches nulls (.map entries)

theorem itemLeaves_eq (items : List Value) : itemLeaves items = items.flatMap leaves := by
  induction items with
  | nil => rfl
  | cons v rest ih => rw [itemLeaves, ih, List.flatMap_cons]

theorem entryLeaves_eq (entries : List (String × Value)) :
    entryLeaves entries = (Table.values entries).flatMap leaves := by
  induction entries with
  | nil => rfl
  | cons entry rest ih =>
    rw [entryLeaves, ih]
    rfl

theorem leaves_of_leaf {v : Value} (single : v.isMultiValued = false) : v.leaves = [v] := by
  cases v <;> first | rfl | cases single

variable {nulls : Bool} {v : Value}

theorem Branches.ne_template (branches : Branches nulls v) (h : Handle) : v ≠ .template h := by
  cases branches with
  | leaf _ apart => exact apart h
  | list => exact nofun
  | map => exact nofun

theorem Branches.null (branches : Branches nulls v) (isNull : v.isNull = true) : nulls = true := by
  cases branches with
  | leaf _ _ allowed => exact allowed isNull
  | list => cases isNull
  | map => cases isNull

theorem Branches.leaves_ne_nil (branches : Branches nulls v) : v.leaves ≠ [] := by
  induction branches with
  | leaf single => simp [leaves_of_leaf single]
  | @list items nonempty _ ih =>
    obtain ⟨first, rest, rfl⟩ := List.exists_cons_of_ne_nil nonempty
    simp [leaves, itemLeaves, ih first List.mem_cons_self]
  | @map entries nonempty _ ih =>
    obtain ⟨⟨name, first⟩, rest, rfl⟩ := List.exists_cons_of_ne_nil nonempty
    simp [leaves, entryLeaves, ih first List.mem_cons_self]

end Value

/-- The text that a leaf is written as. -/
def Setting.leafText (setting : Setting) (o : WriteOptions) : Value → String
  | .null => o.null?.getD ""
  | v => setting.formatters.text v o.format?

/-! ## Flat lists of texts -/

namespace Evaluator

variable {setting : Setting} {ev : Evaluator} {scope : Handle} {separator? : Option Expr}
  {o : WriteOptions} {v : Value} {depth : Nat}

/-- Writes texts one after another, `pending` telling that a separator comes before the first one.
The separator is evaluated anew each time. -/
def writeTexts (setting : Setting) (ev : Evaluator) (scope : Handle) (separator? : Option Expr)
    (pending : Bool) : List String → Run Nat
  | [] => return 0
  | text :: rest => do
    let separated ← ev.writeSeparator setting scope separator? pending
    let written ← Run.emit text
    let others ← writeTexts setting ev scope separator? true rest
    return separated + written + others

theorem writeSeparator_false : ev.writeSeparator setting scope separator? false = pure 0 := by
  cases separator? <;> rfl

theorem writeTexts_pending {texts : List String} (nonempty : texts ≠ []) (pending : Bool) :
    ev.writeTexts setting scope separator? pending texts = do
      let separated ← ev.writeSeparator setting scope separator? pending
      let others ← ev.writeTexts setting scope separator? false texts
      return separated + others := by
  obtain ⟨text, rest, rfl⟩ := List.exists_cons_of_ne_nil nonempty
  simp only [writeTexts, writeSeparator_false, bind_assoc, pure_bind, Nat.zero_add, Nat.add_assoc]

theorem writeTexts_append (first second : List String) (pending : Bool) :
    ev.writeTexts setting scope separator? pending (first ++ second) = do
      let written ← ev.writeTexts setting scope separator? pending first
      let others ← ev.writeTexts setting scope separator? (pending || !first.isEmpty) second
      return written + others := by
  induction first generalizing pending with
  | nil => simp only [List.nil_append, writeTexts, pure_bind, List.isEmpty_nil, Bool.not_true,
      Bool.or_false, Nat.zero_add, bind_pure]
  | cons text rest ih =>
    simp only [List.cons_append, writeTexts, ih, bind_assoc, pure_bind, List.isEmpty_cons,
      Bool.not_false, Bool.or_true, Bool.true_or, Nat.add_assoc]

/-- What the separator comes before is written as if nothing had come before it. -/
theorem writeTexts_group {first : List String} (nonempty : first ≠ []) (second : List String)
    (pending : Bool) :
    ev.writeTexts setting scope separator? pending (first ++ second) = do
      let separated ← ev.writeSeparator setting scope separator? pending
      let written ← ev.writeTexts setting scope separator? false first
      let others ← ev.writeTexts setting scope separator? true second
      return separated + written + others := by
  have begun : (pending || !first.isEmpty) = true := by simp [nonempty]
  rw [writeTexts_append, writeTexts_pending nonempty, begun]
  simp only [bind_assoc, pure_bind]

/-! ## Values -/

/-- Where the second run comes to an end, the first one does so in the same way if it may go deep
enough. -/
def Attains {α : Type} (x : Nat → Run α) (y : Run α) : Prop :=
  ∀ s r u, y s = .ok r u → ∃ least, ∀ deeper ≥ least, x deeper s = .ok r u

theorem Attains.refl {α : Type} (x : Run α) : Attains (fun _ => x) x :=
  fun _ _ _ ended => ⟨0, fun _ _ => ended⟩

theorem Attains.bind {α β : Type} {x : Nat → Run α} {y : Run α} {f : Nat → α → Run β}
    {g : α → Run β} (first : Attains x y) (next : ∀ r, Attains (fun deeper => f deeper r) (g r)) :
    Attains (fun deeper => x deeper >>= f deeper) (y >>= g) := by
  intro s r u ended
  obtain ⟨q, t, begun, ended⟩ := Run.bind_ok ended
  obtain ⟨least, begins⟩ := first s q t begun
  obtain ⟨least', ends⟩ := next q t r u ended
  refine ⟨max least least', fun deeper enough => ?_⟩
  have begins := begins deeper (Nat.le_trans (Nat.le_max_left ..) enough)
  exact (Run.bind_of_ok _ begins).trans (ends deeper (Nat.le_trans (Nat.le_max_right ..) enough))

theorem Attains.step {y : Run Nat}
    (below : Attains (fun depth => (ofDepth setting depth).writeStep setting scope v o) y) :
    Attains (fun depth => (ofDepth setting depth).write scope v o) y := by
  intro s r u ended
  obtain ⟨least, ends⟩ := below s r u ended
  refine ⟨least + 1, fun depth enough => ?_⟩
  obtain ⟨depth, rfl⟩ : ∃ k, depth = k + 1 := ⟨depth - 1, by omega⟩
  exact ends depth (Nat.le_of_succ_le_succ enough)

theorem attains_writeSeparator (depth : Nat) (pending : Bool) :
    Attains (fun deeper => (ofDepth setting deeper).writeSeparator setting scope separator? pending)
      ((ofDepth setting depth).writeSeparator setting scope separator? pending) := by
  intro s r u ended
  refine ⟨depth, fun deeper le => ?_⟩
  obtain ⟨_, ran, rfl⟩ := Deeper.ends_of_agrees (Lockstep.agrees_writeSeparator setting
    Deeper.lawful (Deeper.related_ofDepth setting le) ⟨rfl, rfl⟩ separator? pending) ended
  exact ran

/-- No element of such a structure is left out, and none keeps a separator back. -/
theorem writeElements_of_branches (branches : v.Branches o.null?.isSome) (rest : List Value)
    (pending : Bool) :
    ev.writeElements setting scope o pending (v :: rest) = do
      let separated ← ev.writeSeparator setting scope o.separator? pending
      let written ← ev.write scope v o
      let others ← ev.writeElements setting scope o true rest
      return separated + written + others := by
  have taken : (v.isNull && o.null?.isNone) = false := by
    cases isNull : v.isNull with
    | false => rfl
    | true => simpa using branches.null isNull
  have separates (a : Arena) : suppressesSeparator a v = false := by
    cases v with
    | template h => exact absurd rfl (branches.ne_template h)
    | _ => rfl
  rw [writeElements_cons, if_neg (by simp [taken])]
  simp only [separates, Bool.and_false, Bool.not_false]
  rfl

theorem attains_writeElements {items : List Value} (depth : Nat)
    (branches : ∀ v ∈ items, v.Branches o.null?.isSome)
    (each : ∀ v ∈ items, Attains (fun deeper => (ofDepth setting deeper).write scope v o)
      ((ofDepth setting depth).writeTexts setting scope o.separator? false
        (v.leaves.map (setting.leafText o)))) (pending : Bool) :
    Attains (fun deeper => (ofDepth setting deeper).writeElements setting scope o pending items)
      ((ofDepth setting depth).writeTexts setting scope o.separator? pending
        ((items.flatMap Value.leaves).map (setting.leafText o))) := by
  induction items generalizing pending with
  | nil => exact .refl _
  | cons v rest ih =>
    obtain ⟨branch, branches⟩ := List.forall_mem_cons.1 branches
    obtain ⟨here, each⟩ := List.forall_mem_cons.1 each
    have nonempty : v.leaves.map (setting.leafText o) ≠ [] := by simp [branch.leaves_ne_nil]
    rw [List.flatMap_cons, List.map_append, writeTexts_group nonempty]
    simp only [writeElements_of_branches branch]
    refine (attains_writeSeparator depth pending).bind fun separated => ?_
    refine here.bind fun written => ?_
    exact (ih branches each true).bind fun others => .refl _

/-- A structure is written like the one list of its leaves. -/
theorem attains_write (depth : Nat) (branches : v.Branches o.null?.isSome) :
    Attains (fun deeper => (ofDepth setting deeper).write scope v o)
      ((ofDepth setting depth).writeTexts setting scope o.separator? false
        (v.leaves.map (setting.leafText o))) := by
  induction branches with
  | @leaf v single apart allowed =>
    have written : (ofDepth setting depth).writeTexts setting scope o.separator? false
        (v.leaves.map (setting.leafText o)) = Run.emit (setting.leafText o v) := by
      simp only [Value.leaves_of_leaf single, List.map_cons, List.map_nil, writeTexts,
        writeSeparator_false, pure_bind, Nat.zero_add, Nat.add_zero, bind_pure]
    rw [written]
    refine .step ?_
    cases v with
    | null =>
      obtain ⟨text, null⟩ := Option.isSome_iff_exists.1 (allowed rfl)
      simp only [writeStep, Setting.leafText, null, Option.getD_some]
      exact .refl _
    | list => cases single
    | map => cases single
    | template h => exact absurd rfl (apart h)
    | _ => exact .refl _
  | @list items _ branches ih =>
    rw [Value.leaves, Value.itemLeaves_eq]
    exact .step (attains_writeElements depth branches ih false)
  | @map entries _ branches ih =>
    rw [Value.leaves, Value.entryLeaves_eq]
    exact .step (attains_writeElements depth branches ih false)

end Evaluator

/-! ## Writers without indentation -/

namespace Writer

/-- No indentation is in force: the writer makes none, or those that are open come to nothing. -/
def Unindented (w : Writer) : Prop := w.strategy = .noIndent ∨ String.join w.lineIndents = ""

/-- The writer behind a text that it has written as it stands. -/
def written (w : Writer) (s : String) : Writer :=
  w.past s (w.strategy.startsAfter w.atLineStart s)

variable {w : Writer}

theorem Unindented.write (unindented : w.Unindented) {s : String}
    (fits : w.sink.accepts s = true) : w.write s = (w.written s, some s.length) := by
  have same : w.strategy.layOut w.indents w.atLineStart s = s := by
    unfold Strategy.layOut
    rcases unindented with none | nothing
    · rw [none]
    · have indentation : String.join w.indents.reverse = "" := nothing
      rw [indentation, String.toList_empty, Line.indent_nil, String.ofList_toList]
      cases w.strategy <;> rfl
  have sent := sends_write w s
  rw [same] at sent
  generalize w.write s = r at sent
  cases sent with
  | whole => rfl
  | part refused => exact absurd (refused.symm.trans fits) (by simp)

theorem written_append (w : Writer) (s t : String) :
    (w.written s).written t = w.written (s ++ t) := by
  have starts : w.strategy.startsAfter (w.strategy.startsAfter w.atLineStart s) t =
      w.strategy.startsAfter w.atLineStart (s ++ t) := by
    unfold Strategy.startsAfter
    cases w.strategy with
    | noIndent => rfl
    | autoIndent => rw [String.toList_append, Line.startsAfter_append]
  simp only [written, past, Sink.append_append, starts]

theorem emit_unindented (s : RenderState) {text : String} (unindented : w.Unindented)
    (fits : w.sink.accepts text = true) :
    Run.emit text { s with writer := w } = .ok text.length { s with writer := w.written text } := by
  simp only [Run.emit, unindented.write fits]

end Writer

namespace Evaluator

variable {setting : Setting} {ev : Evaluator} {scope : Handle} {e : Expr} {depth n : Nat}
  {sep : String} {s t : RenderState}

/-- An expression is evaluated a number of times, one after another, and comes to the same text each
time. -/
inductive Repeats (setting : Setting) (ev : Evaluator) (scope : Handle) (e : Expr) (sep : String) :
    Nat → RenderState → RenderState → Prop
  | never {s : RenderState} : Repeats setting ev scope e sep 0 s s
  | once_more {n : Nat} {s s₁ t : RenderState} :
    ev.evalText setting scope e s = .ok sep s₁ → Repeats setting ev scope e sep n s₁ t →
    Repeats setting ev scope e sep (n + 1) s t

/-- Texts come to one text, with the same separator between each two. -/
theorem writeTexts_of_repeats {rest : List String}
    (repeats : Repeats setting (ofDepth setting depth) scope e sep rest.length s t) {w : Writer}
    (unindented : w.Unindented) (text : String)
    (fits : w.sink.accepts (sep.intercalate (text :: rest)) = true) :
    (ofDepth setting depth).writeTexts setting scope (some e) false (text :: rest)
        { s with writer := w } =
      .ok (sep.intercalate (text :: rest)).length
        { t with writer := w.written (sep.intercalate (text :: rest)) } := by
  induction rest generalizing s w text with
  | nil =>
    cases repeats
    rw [String.intercalate_singleton] at fits ⊢
    simp only [writeTexts, writeSeparator_false, pure_bind, Nat.zero_add, Nat.add_zero, bind_pure]
    exact Writer.emit_unindented _ unindented fits
  | cons next rest ih =>
    obtain _ | @⟨_, _, s₁, _, evaluated, repeats⟩ := repeats
    rw [String.intercalate_cons_cons] at fits ⊢
    rw [Sink.accepts_append, Sink.accepts_append, Bool.and_eq_true, Bool.and_eq_true] at fits
    obtain ⟨⟨first, second⟩, others⟩ := fits
    have silent : Drafting.Silent (fun _ => True) Drafting.Any
        ((ofDepth setting depth).evalText setting scope e) :=
      Drafting.silent_evalText (Drafting.drafts_everything setting depth)
        (within_everything e.indents)
    obtain ⟨-, -, -, evaluates⟩ := silent.rerun s.arena.opens_everything evaluated
    have separated : (ofDepth setting depth).writeSeparator setting scope (some e) true
        { s with writer := w.written text } =
        .ok sep.length { s₁ with writer := w.written (text ++ sep) } := by
      rw [← Writer.written_append]
      exact (Run.bind_of_ok _ (evaluates _)).trans (Writer.emit_unindented s₁ unindented second)
    have written := ih repeats (w := w.written (text ++ sep)) unindented next others
    rw [Writer.written_append] at written
    rw [writeTexts, writeTexts_pending (by simp), writeSeparator_false, pure_bind,
      Run.bind_of_ok _ (Writer.emit_unindented s unindented first), bind_assoc,
      Run.bind_of_ok _ separated, bind_assoc, Run.bind_of_ok _ written]
    simp only [String.length_append, Nat.zero_add, Nat.add_assoc]
    rfl

end Evaluator

open Evaluator

/-- Lists and maps inside each other are written like the one list of their leaves, whatever their
grouping: leaf by leaf, with a separator between each two that is evaluated anew each time. Where it
comes to the same text each time and no indentation is in force, this is the leaves' texts joined by
that text, and nothing else is done than to evaluate the separator as often as it is written. -/
theorem separator_joins_leaves (setting : Setting) (depth : Nat) (scope : Handle) {v : Value}
    {o : WriteOptions} (branches : v.Branches o.null?.isSome) {e : Expr}
    (separator : o.separator? = some e) :
    let ev := Evaluator.ofDepth setting depth
    let texts := v.leaves.map (setting.leafText o)
    (∀ s n u, ev.writeTexts setting scope (some e) false texts s = .ok n u →
      ∃ least, ∀ deeper ≥ least,
        (Evaluator.ofDepth setting deeper).write scope v o s = .ok n u) ∧
    ∀ sep s t, ev.Repeats setting scope e sep (v.leaves.length - 1) s t →
      s.writer.Unindented → s.writer.sink.accepts (sep.intercalate texts) = true →
      ∃ least, ∀ deeper ≥ least, (Evaluator.ofDepth setting deeper).write scope v o s =
        .ok (sep.intercalate texts).length
          { t with writer := s.writer.written (sep.intercalate texts) } := by
  intro ev texts
  have attains : Attains (fun deeper => (Evaluator.ofDepth setting deeper).write scope v o)
      (ev.writeTexts setting scope (some e) false texts) :=
    separator ▸ attains_write depth branches
  refine ⟨attains, fun sep s t repeats unindented fits => attains s _ _ ?_⟩
  obtain ⟨first, rest, leaves⟩ := List.exists_cons_of_ne_nil branches.leaves_ne_nil
  have listed : texts = setting.leafText o first :: rest.map (setting.leafText o) := by
    simp only [texts, leaves, List.map_cons]
  rw [listed] at fits ⊢
  refine writeTexts_of_repeats ?_ unindented _ fits
  simpa [leaves] using repeats

/-- A map in a list, with another list in it. The separator reports something each time that it is
evaluated, which is once for each pair of neighbours. -/
theorem grouped_leaves_joined :
    let v : Value := .list [.text "a", .map [("k", .list [.int 1, .null]), ("l", .bool true)]]
    let o : WriteOptions := ⟨some (.concat (.text ", ") (.attribute "x")), some "-", none⟩
    let s : RenderState :=
      ⟨(Arena.empty.instantiate (.plain "page" [])).2, [], (Writer.fresh .autoIndent).push ""⟩
    ∃ depth u, (Evaluator.ofDepth .standard depth).write ⟨0⟩ v o s = .ok 13 u ∧
      u.writer.text = "a, 1, -, true" ∧
      u.diagnostics = List.replicate 3 (.missingAttribute "page" "x") := by
  intro v o s
  have one : (Value.int 1).Branches true := .leaf rfl nofun nofun
  have none : Value.null.Branches true := .leaf rfl nofun fun _ => rfl
  have yes : (Value.bool true).Branches true := .leaf rfl nofun nofun
  have letter : (Value.text "a").Branches true := .leaf rfl nofun nofun
  have numbers : (Value.list [.int 1, .null]).Branches true := .list nofun (by simp [one, none])
  have branches : v.Branches true :=
    .list nofun (by simp [letter, Value.Branches.map, Table.values, numbers, yes])
  obtain ⟨-, joins⟩ := separator_joins_leaves .standard 2 ⟨0⟩ (o := o) branches rfl
  obtain ⟨least, writes⟩ := joins ", " s _ (.once_more rfl (.once_more rfl (.once_more rfl .never)))
    (.inr rfl) (Sink.accepts_of_limit?_eq_none rfl _)
  have joined :
      ", ".intercalate (v.leaves.map (Setting.standard.leafText o)) = "a, 1, -, true" := by
    decide +kernel
  rw [joined] at writes
  exact ⟨least, _, writes least (Nat.le_refl _), by decide +kernel, rfl⟩

end Stencil
