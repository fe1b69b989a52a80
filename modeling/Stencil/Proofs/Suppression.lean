import Stencil.Proofs.Assembly.Chains
import Stencil.Proofs.Footprint
import Stencil.Proofs.Scanning.Shorter
import Stencil.Proofs.Sequence
/-!
# Separators behind conditionals

An instance that writes nothing may keep the separator behind it from being written. That depends on
what its template begins with, which the render does not change: a conditional of one arm and no
else branch. A chain with further arms is kept as a conditional with an else branch, and so the
separator behind it is always written.
-/
namespace Stencil

open Text (Position)

namespace Run

variable {α β : Type}

/-- What comes after a run matters only where it comes to an end. -/
theorem bind_congr_ok {x : Run α} {f g : α → Run β} {s : RenderState}
    (next : ∀ v t, x s = .ok v t → f v t = g v t) : (x >>= f) s = (x >>= g) s := by
  rcases ran : x s with ⟨v, t⟩ | ⟨cause, t⟩
  · rw [bind_of_ok f ran, bind_of_ok g ran]
    exact next v t ran
  · rw [bind_of_error f ran, bind_of_error g ran]

end Run

namespace Evaluator

variable {setting : Setting} {ev : Evaluator} {scope h : Handle} {o : WriteOptions}
  {s : RenderState} {depth : Nat}

/-- Nulls that no text stands for are as good as absent. -/
theorem writeElements_nulls {nulls : List Value}
    (absent : ∀ v ∈ nulls, v.isNull = true ∧ o.null? = none) (pending : Bool)
    (rest : List Value) :
    ev.writeElements setting scope o pending (nulls ++ rest) =
      ev.writeElements setting scope o pending rest := by
  induction nulls with
  | nil => rfl
  | cons v others ih =>
    obtain ⟨⟨isNull, noText⟩, absent⟩ := List.forall_mem_cons.1 absent
    rw [List.cons_append, writeElements_cons, if_pos (by simp [isNull, noText]), ih absent]

/-- Whether an instance suppresses the separator behind it is settled before it is written. -/
theorem writeElements_template (inside : s.arena.contains scope) (instance_ : s.arena.contains h)
    (pending : Bool) (rest : List Value) :
    (ofDepth setting depth).writeElements setting scope o pending (.template h :: rest) s =
      (do
        let before ← (ofDepth setting depth).writeSeparator setting scope o.separator? pending
        let written ← (ofDepth setting depth).write scope (.template h) o
        let others ← (ofDepth setting depth).writeElements setting scope o
          (!(written = 0 && (s.arena.get h).template.isPureConditional)) rest
        return before + written + others : Run Nat) s := by
  have laws := Footprint.lawful setting s.arena
  have upheld := Invariant.upheld_ofDepth laws (fun _ => trivial) depth
  rw [writeElements_cons]
  refine Run.bind_congr_ok fun before t ran => ?_
  have ends := Invariant.keeps_writeSeparator laws upheld (c := scope) o.separator? pending s
    (.refl _) inside
  rw [ran] at ends
  obtain ⟨kept, grown, -⟩ := ends
  refine Run.bind_congr_ok fun written u ran => ?_
  have ends := upheld.write scope (.template h) o t kept
    (Arena.contains_of_size_le grown inside)
  rw [ran] at ends
  obtain ⟨kept, -, -⟩ := ends
  rw [Run.arena_bind, suppressesSeparator, kept.template instance_]

end Evaluator

/-- What a template with a chain of conditions in front begins with. -/
theorem Chain.isPureConditional {d : Delimiters} {name : String} {source : List Char}
    {chain : Chain} {more : List Token}
    (split : Token.ofSource d source = .ok (chain.tokens ++ more))
    (wellNested : chain.WellNested ⟨name, compileChunks d⟩) {t : Template}
    (compiled : t.chunks = (compileChunks d name source).1) :
    t.chunks ≠ [] ∧ t.isPureConditional = (chain.more.isEmpty && chain.otherwise?.isNone) := by
  obtain ⟨others, chunks⟩ := Chain.exists_rest wellNested more
  obtain ⟨rest, made, lacking⟩ := chain.exists_chunk ⟨name, compileChunks d⟩
  rw [← (compileChunks_eq split name).1, ← compiled, made] at chunks
  rw [Template.isPureConditional, chunks, ← lacking]
  exact ⟨List.cons_ne_nil _ _, by cases rest <;> rfl⟩

/-- Behind an instance of a template with a chain of conditions in front, nulls that are left out
aside, the next element of a list comes after a separator unless the chain is a single arm without
an else branch and nothing was written. -/
theorem chain_separator {d : Delimiters} {name : String} {source : List Char} {chain : Chain}
    {more : List Token} (split : Token.ofSource d source = .ok (chain.tokens ++ more))
    (wellNested : chain.WellNested ⟨name, compileChunks d⟩) {scope h : Handle} {s : RenderState}
    (inside : s.arena.contains scope)
    (compiled : (s.arena.get h).template.chunks = (compileChunks d name source).1)
    {o : WriteOptions} {nulls : List Value}
    (absent : ∀ v ∈ nulls, v.isNull = true ∧ o.null? = none) {next : Value}
    (present : next.isNull = true → o.null? ≠ none) (setting : Setting) (depth : Nat)
    (pending : Bool) (rest : List Value) :
    let ev := Evaluator.ofDepth setting depth
    ev.writeElements setting scope o pending (.template h :: (nulls ++ next :: rest)) s =
      (do
        let before ← ev.writeSeparator setting scope o.separator? pending
        let written ← ev.write scope (.template h) o
        let between ← ev.writeSeparator setting scope o.separator?
          (!(written = 0 && (chain.more.isEmpty && chain.otherwise?.isNone)))
        let own ← ev.write scope next o
        let a ← Run.arena
        let others ← ev.writeElements setting scope o
          (!(own = 0 && Evaluator.suppressesSeparator a next)) rest
        return before + written + (between + own + others) : Run Nat) s := by
  intro ev
  obtain ⟨notBlank, pure⟩ := Chain.isPureConditional split wellNested compiled
  have instance_ : s.arena.contains h := by
    by_contra outside
    rw [Arena.get_eq_default outside] at notBlank
    exact notBlank rfl
  have shown : ¬ (next.isNull && o.null?.isNone) = true := by
    rw [Bool.and_eq_true, Option.isNone_iff_eq_none]
    exact fun ⟨isNull, noText⟩ => present isNull noText
  simp only [ev, Evaluator.writeElements_template inside instance_, pure,
    Evaluator.writeElements_nulls absent, Evaluator.writeElements_cons _ _ _ _ _ next, if_neg shown,
    bind_assoc, pure_bind]

namespace Suppression

def source : List Char := "$if(v)$x$elseif(v)$y$endif$".toList

/-- The two arms of the source. -/
def chain : Chain where
  first := ⟨['v'], 3, ⟨1, 2⟩, [.text ['x']]⟩
  more := [⟨['v'], 7, ⟨1, 10⟩, [.text ['y']]⟩]
  otherwise? := none
  stop := ⟨1, 22⟩

def template : Template :=
  .plain "item" [.conditional (.attribute "v") (.plain "item" [.literal "x"])
    (some (.plain "item" [.conditional (.attribute "v") (.plain "item" [.literal "y"]) none]))]

theorem split : Token.ofSource .dollar source = .ok (chain.tokens ++ []) := by decide +kernel

theorem wellNested (ctx : ParseContext) : chain.WellNested ctx where
  arms := List.forall_mem_cons.2
    ⟨⟨_, .text ctx ['x']⟩, List.forall_mem_singleton.2 ⟨_, .text ctx ['y']⟩⟩
  otherwise := nofun

theorem compiled : template.chunks = (compileChunks .dollar "item" source).1 := by
  have first : Lexeme.scan ⟨1, 5⟩ ['v'] = .ok ⟨[⟨.name "v", ⟨1, 5⟩⟩], ⟨1, 6⟩⟩ := by
    decide +kernel
  have second : Lexeme.scan ⟨1, 17⟩ ['v'] = .ok ⟨[⟨.name "v", ⟨1, 17⟩⟩], ⟨1, 18⟩⟩ := by
    decide +kernel
  have nested := (wellNested ⟨"item", compileChunks .dollar⟩).nested
  rw [(compileChunks_eq split "item").1, List.append_nil, Assembly.ofTokens_nested nested]
  simp only [Chain.chunk, chain, Passage.arm, Position.right, List.map_cons, List.map_nil,
    Assembly.conditional, Grammar.parseCondition_name _ first,
    Grammar.parseCondition_name _ second]
  rfl

/-- An instance that lists two others. Only the second one has something to write. -/
def listing : Arena :=
  let first := Arena.empty.instantiate template
  let second := first.2.instantiate template
  let main := second.2.instantiate (.plain "main"
    [.expression (.attribute "items") ⟨some (.text ","), none, none⟩ none])
  let set := (main.2.setAttribute first.1 "v" (.bool false)).setAttribute second.1 "v" (.bool true)
  set.setAttribute main.1 "items" (.list [.template first.1, .template second.1])

end Suppression

theorem separator_behind_chain :
    let o : WriteOptions := ⟨some (.text ","), none, none⟩
    ∃ t, (Evaluator.ofDepth .standard 6).writeElements .standard ⟨2⟩ o false
        [.template ⟨0⟩, .template ⟨1⟩] ⟨Suppression.listing, [], .fresh .autoIndent⟩ = .ok 2 t ∧
      t.writer.text = ",x" ∧ t.diagnostics = [] := by
  intro o
  have absent : ∀ v ∈ ([] : List Value), v.isNull = true ∧ o.null? = none := nofun
  have present : (Value.template ⟨1⟩).isNull = true → o.null? ≠ none := nofun
  have inside : Suppression.listing.contains ⟨2⟩ := by decide
  have run := chain_separator Suppression.split (Suppression.wellNested _)
    (s := ⟨Suppression.listing, [], .fresh .autoIndent⟩) (h := ⟨0⟩) inside Suppression.compiled
    absent present .standard 6 false []
  exact ⟨_, run.trans rfl, by decide +kernel, by decide +kernel⟩

/-- The chain has no else branch and its first instance writes nothing, and yet a separator comes
behind that. -/
theorem elseif_keeps_separator :
    Token.ofSource .dollar Suppression.source = .ok Suppression.chain.tokens ∧
      Suppression.chain.otherwise? = none ∧
      Suppression.template.chunks = (compileChunks .dollar "item" Suppression.source).1 ∧
      (Setting.standard.renderToText Suppression.listing ⟨0⟩).writer.text = "" ∧
      (Setting.standard.renderToText Suppression.listing ⟨2⟩).writer.text = ",x" :=
  ⟨Suppression.split, rfl, Suppression.compiled, by decide +kernel, by decide +kernel⟩

end Stencil
