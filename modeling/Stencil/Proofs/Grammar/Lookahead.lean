import Stencil.Proofs.Grammar.Phrase
/-!
# What the next symbols decide

Where a parser looks at the next symbols without taking them, the branch that it goes on with, said
in the terms of the rules of the grammar.
-/
namespace Stencil

open Stencil.Symbol (Starts StartsBinding)
open Parse

/-- The symbols that are left to read. -/
def ParseState.symbols (st : ParseState) : List Symbol := st.rest.map Lexeme.symbol

theorem ParseState.length_symbols (st : ParseState) : st.symbols.length = st.rest.length := by
  simp [symbols]

/-- The state behind the next symbol. -/
abbrev ParseState.behind (st : ParseState) : ParseState := { st with rest := st.rest.drop 1 }

theorem ParseState.symbols_behind (st : ParseState) : st.behind.symbols = st.symbols.drop 1 :=
  List.map_drop

open ParseState (behind)

namespace Parse

variable {α β : Type} {st : ParseState}

theorem bind_peek (f : Option Symbol → Parse β) (st : ParseState) :
    (peek >>= f) st = f st.symbols.head? st := by
  simp [bind_apply, peek, ParseState.symbols]

theorem bind_peekSecond (f : Option Symbol → Parse β) (st : ParseState) :
    (peekSecond >>= f) st = f (st.symbols.drop 1).head? st := by
  simp [bind_apply, peekSecond, ParseState.symbols, ← List.map_drop]

/-- What is dropped depends on the symbols only. -/
theorem exists_skipTo_eq_drop (marks : List Mark) {rest rest' : List Lexeme}
    (same : rest.map Lexeme.symbol = rest'.map Lexeme.symbol) (depth : Nat) :
    ∃ n, skipTo marks depth rest = rest.drop n ∧ skipTo marks depth rest' = rest'.drop n := by
  induction rest generalizing rest' depth with
  | nil =>
    obtain rfl := List.map_eq_nil_iff.1 same.symm
    exact ⟨0, rfl, rfl⟩
  | cons l rest ih =>
    rcases rest' with _ | ⟨l', rest'⟩
    · cases same
    · obtain ⟨first, others⟩ := List.cons.inj same
      have onward (depth : Nat) : ∃ n, skipTo marks depth rest = (l :: rest).drop n ∧
          skipTo marks depth rest' = (l' :: rest').drop n := by
        obtain ⟨n, dropped, dropped'⟩ := ih others depth
        exact ⟨n + 1, dropped, dropped'⟩
      simp only [skipTo, ← first]
      split
      · exact ⟨0, rfl, rfl⟩
      · split
        all_goals first
          | exact onward _
          | exact ⟨0, rfl, rfl⟩

/-- The mark at the front of the symbols is taken. -/
theorem bind_eat_of_starts {m : Mark} (f : Bool → Parse β) (next : Starts m st.symbols) :
    (eat m >>= f) st = f true (behind st) := by
  have run : eat m st = (some true, behind st) := by
    rw [eat, bind_peek, if_pos next]
    rfl
  rw [bind_apply, run]

theorem bind_eat_of_not_starts {m : Mark} (f : Bool → Parse β) (other : ¬ Starts m st.symbols) :
    (eat m >>= f) st = f false st := by
  have run : eat m st = (some false, st) := by
    rw [eat, bind_peek, if_neg other]
    rfl
  rw [bind_apply, run]

end Parse

namespace Grammar

variable {α : Type} {ctx : ParseContext} {g : Grammar} {st : ParseState}

theorem binding_branch {A B : Parse α} (next : StartsBinding st.symbols) :
    (do
      match ← peek, ← peekSecond with
      | some (.name _), some (.mark .equals) => A
      | _, _ => B) st = A st := by
  obtain ⟨⟨name, first⟩, second⟩ := next
  rw [bind_peek, bind_peekSecond, first, second]

theorem positional_branch {A B : Parse α} (next : ¬ StartsBinding st.symbols) :
    (do
      match ← peek, ← peekSecond with
      | some (.name _), some (.mark .equals) => A
      | _, _ => B) st = B st := by
  rw [bind_peek, bind_peekSecond]
  refine congrFun ?_ st
  split
  · rename_i name first second
    exact absurd ⟨⟨name, first⟩, second⟩ next
  · rfl

theorem call_branch {A B : Parse α} (next : Starts .leftParen st.symbols) :
    (do
      match ← peek with
      | some (.mark .leftParen) => A
      | _ => B) st = A st := by
  rw [bind_peek, next]

theorem value_branch {A B : Parse α} (next : ¬ Starts .leftParen st.symbols) :
    (do
      match ← peek with
      | some (.mark .leftParen) => A
      | _ => B) st = B st := by
  rw [bind_peek]
  refine congrFun ?_ st
  split
  · rename_i first
    exact absurd first next
  · rfl

theorem aligned_branch {A B : Parse α} (next : Starts .comma st.symbols) :
    (do
      match true, ← peek with
      | true, some (.mark .comma) => A
      | _, _ => B) st = A st := by
  rw [bind_peek, next]

theorem single_branch {top : Bool} {A B : Parse α}
    (next : ¬ (top = true ∧ Starts .comma st.symbols)) :
    (do
      match top, ← peek with
      | true, some (.mark .comma) => A
      | _, _ => B) st = B st := by
  rw [bind_peek]
  refine congrFun ?_ st
  split
  · rename_i first
    exact absurd ⟨rfl, first⟩ next
  · rfl

/-! ## Behind a name -/

theorem attribute_branch {name : String} (noCall : ¬ Starts .leftParen st.symbols)
    (noParent : ¬ (name = "super" ∧ Starts .dot st.symbols)) :
    (match st.symbols.head? with
      | some (.mark .dot) =>
        if name = "super" then do
          advance
          let target ← expectName
          pure (Expr.call (.super target) (← arguments g))
        else pure (.attribute name)
      | some (.mark .leftParen) =>
        match Builtin.ofName? name with
        | some function => do
          advance
          let inner ← g.templates true
          expect .rightParen
          pure (.builtin function inner)
        | none => do pure (.call (.name name) (← arguments g))
      | _ => pure (.attribute name)) = (pure (.attribute name) : Parse Expr) := by
  split
  · rename_i dot
    rw [if_neg fun parent => noParent ⟨parent, dot⟩]
  · rename_i paren
    exact absurd paren noCall
  · rfl

theorem afterName_attribute {name : String} (noCall : ¬ Starts .leftParen st.symbols)
    (noParent : ¬ (name = "super" ∧ Starts .dot st.symbols)) :
    afterName g name st = (some (.attribute name), st) := by
  rw [afterName, bind_peek]
  exact congrFun (attribute_branch noCall noParent) st

theorem afterName_super (next : Starts .dot st.symbols) :
    afterName g "super" st =
      (do
        let target ← expectName
        pure (Expr.call (.super target) (← arguments g)))
        (behind st) := by
  rw [afterName, bind_peek, next]
  rfl

theorem afterName_builtin {name : String} {f : Builtin} (function : Builtin.ofName? name = some f)
    (next : Starts .leftParen st.symbols) :
    afterName g name st =
      (do
        let inner ← g.templates true
        expect .rightParen
        pure (Expr.builtin f inner)) (behind st) := by
  rw [afterName, bind_peek, next]
  dsimp only
  rw [function]
  rfl

theorem afterName_call {name : String} (function : Builtin.ofName? name = none)
    (next : Starts .leftParen st.symbols) :
    afterName g name st = (do pure (Expr.call (.name name) (← arguments g))) st := by
  rw [afterName, bind_peek, next]
  dsimp only
  rw [function]

/-! ## Templates -/

theorem templateRef_named {name : String} (next : st.symbols.head? = some (.name name))
    (noParent : ¬ (name = "super" ∧ Starts .dot (behind st).symbols)) :
    templateRef ctx g st =
      (do pure (TemplateRef.named (.name name) (← arguments g))) (behind st) := by
  rw [templateRef, bind_peek, next]
  dsimp only
  rw [bind_apply]
  by_cases parent : name = "super"
  · rw [if_pos parent]
    refine (bind_eat_of_not_starts _ fun dot => noParent ⟨parent, dot⟩).trans ?_
    rfl
  · rw [if_neg parent]
    rfl

theorem templateRef_super (next : st.symbols.head? = some (.name "super"))
    (dot : Starts .dot (behind st).symbols) :
    templateRef ctx g st =
      (do
        let target ← expectName
        pure (TemplateRef.named (.super target) (← arguments g))) (behind (behind st)) := by
  rw [templateRef, bind_peek, next]
  dsimp only
  rw [bind_apply, if_pos rfl]
  refine (bind_eat_of_starts _ dot).trans ?_
  have target : (Target.super <$> expectName : Parse Target) =
      expectName >>= fun name => pure (.super name) := rfl
  simp only [if_true, target, bind_apply]
  rcases expectName (behind (behind st)) with ⟨_ | name, st'⟩ <;> rfl

variable (ctx g) in
theorem templateRef_inline {raw : List Char} (next : st.symbols.head? = some (.inline raw)) :
    ∃ pos, templateRef ctx g st =
      (do pure (TemplateRef.inline (← inlineTemplate ctx raw pos))) (behind st) := by
  refine ⟨(st.rest.head?.map Lexeme.pos).getD st.stop, ?_⟩
  rw [templateRef, bind_peek, next]
  rfl

theorem templateRef_computed (next : Starts .leftParen st.symbols) :
    templateRef ctx g st =
      (do
        let inner ← g.templates true
        expect .rightParen
        pure (TemplateRef.named (.computed inner) (← arguments g))) (behind st) := by
  rw [templateRef, bind_peek, next]
  rfl

/-! ## Options -/

/-- Sets the option of a name. -/
def setOption (options : ExprOptions) (name : String) (value : Expr) : Parse ExprOptions :=
  match name with
  | "separator" => pure { options with separator := some value }
  | "null" => pure { options with null := some value }
  | "format" => pure { options with format := some value }
  | _ => fail (.unknownOption name)

theorem option_eq (options : ExprOptions) :
    option g options = (do
      let name ← expectName
      let value ← if ← eat .equals then sum g else pure (.text "")
      setOption options name value) := rfl

theorem setOption_known {name : String} (known : IsOption name) (options : ExprOptions)
    (value : Expr) : ∃ options', setOption options name value = pure options' := by
  rcases known with rfl | rfl | rfl
  · exact ⟨_, rfl⟩
  · exact ⟨_, rfl⟩
  · exact ⟨_, rfl⟩

theorem setOption_unknown {name : String} (unknown : ¬ IsOption name) (options : ExprOptions)
    (value : Expr) : setOption options name value = fail (.unknownOption name) := by
  unfold setOption
  split
  · exact absurd (Or.inl rfl) unknown
  · exact absurd (Or.inr (Or.inl rfl)) unknown
  · exact absurd (Or.inr (Or.inr rfl)) unknown
  · rfl

/-- The options of a chunk, behind its expression, and its end. -/
def optionsBehind (g : Grammar) (e : Expr) : Parse (Expr × ExprOptions) := do
  let options ←
    if ← eat .semicolon then repeated .comma (addOption g) (← addOption g .none)
    else pure .none
  expectEnd
  pure (e, options)

theorem action_eq :
    action ctx g = (do
      match ← attempt (application ctx g true) with
      | some e => optionsBehind g e
      | none =>
        synchronize [.semicolon]
        optionsBehind g (.text "")) := rfl

end Grammar
end Stencil
