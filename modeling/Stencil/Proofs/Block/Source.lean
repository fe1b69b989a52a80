import Stencil.Proofs.Assembly.Nesting
import Stencil.Proofs.Scanning.Shorter
/-!
# Blocks on lines of their own

What stands on whole lines compiles by itself: sources of whole lines can be put together, and so
can their chunks. The same goes for a conditional whose markers have lines of their own.
-/
namespace Stencil

open Text (Position EndsLine)

variable {ctx : ParseContext}

/-! ## Tokens that make up chunks -/

theorem Token.leaf?_ne_literal {token : Token} (notText : token.NotText) (s : String) :
    token.leaf? ctx ≠ some (.literal s) := by
  cases token with
  | text t => exact absurd rfl (notText t)
  | expr source indent? pos =>
    intro stands
    cases Option.some.inj stands
  | _ => nofun

namespace Nested

theorem eq_nil_iff {tokens : List Token} {items : List Chunk} (nested : Nested ctx tokens items) :
    tokens = [] ↔ items = [] := by
  cases nested <;> simp

/-- Behind a token that is no text there is no literal that could go on. -/
theorem last_item {tokens : List Token} {items : List Chunk} (nested : Nested ctx tokens items)
    {last : Token} (ends : tokens.getLast? = some last) (notText : last.NotText) :
    ∃ init item, items = init ++ [item] ∧ ∀ s, item ≠ .literal s := by
  match nested with
  | .nil => cases ends
  | @Nested.leaf _ token chunk tokens chunks stands rest =>
    by_cases nothing : tokens = []
    · obtain rfl := rest.eq_nil_iff.1 nothing
      subst nothing
      obtain rfl := Option.some.inj ends
      refine ⟨[], chunk, rfl, fun s same => ?_⟩
      exact Token.leaf?_ne_literal notText s (same ▸ stands)
    · rw [List.getLast?_cons_of_ne_nil nothing] at ends
      obtain ⟨init, item, rfl, other⟩ := last_item rest ends notText
      exact ⟨chunk :: init, item, rfl, other⟩
  | @Nested.conditional _ source offset pos body ending tokens holds chunks otherwise inner ends'
      rest =>
    by_cases nothing : tokens = []
    · obtain rfl := rest.eq_nil_iff.1 nothing
      exact ⟨[], _, rfl, nofun⟩
    · have behind : tokens.getLast? = some last := by
        rw [← List.append_assoc, ← List.cons_append, List.getLast?_append] at ends
        rwa [List.getLast?_eq_some_getLast nothing] at ends ⊢
      obtain ⟨init, item, rfl, other⟩ := last_item rest behind notText
      exact ⟨_ :: init, item, rfl, other⟩

end Nested

/-- The tokens compile to the chunks. -/
def Assembly.Makes (ctx : ParseContext) (tokens : List Token) (chunks : List Chunk) : Prop :=
  ofTokens ctx tokens = (chunks, [])

namespace Assembly

variable {tokens more : List Token} {chunks chunks' : List Chunk}

theorem makes_iff : Makes ctx tokens chunks ↔
    ∃ items, Nested ctx tokens items ∧ tokens.flatMap (Token.errors ctx) = [] ∧
      Chunk.join items = chunks := by
  constructor
  · intro makes
    have clean := congrArg Prod.snd makes
    have errors : (ofTokens ctx tokens).2.Perm
        (tokens.flatMap (Token.errors ctx) ++ empty.reports ctx tokens) :=
      errors_perm ctx tokens empty
    rw [show (ofTokens ctx tokens).2 = [] from clean, List.nil_perm,
      List.append_eq_nil_iff] at errors
    obtain ⟨items, nested⟩ := reports_eq_nil_iff.1 errors.2
    rw [Makes, ofTokens_nested nested] at makes
    exact ⟨items, nested, errors.1, congrArg Prod.fst makes⟩
  · rintro ⟨items, nested, clean, rfl⟩
    rw [Makes, ofTokens_nested nested, clean]

theorem Makes.append (makes : Makes ctx tokens chunks) (makes' : Makes ctx more chunks')
    (closed : Token.EndClosed tokens) : Makes ctx (tokens ++ more) (chunks ++ chunks') := by
  obtain ⟨items, nested, clean, rfl⟩ := makes_iff.1 makes
  obtain ⟨items', nested', clean', rfl⟩ := makes_iff.1 makes'
  refine makes_iff.2 ⟨items ++ items', nested.append nested', by simp [clean, clean'], ?_⟩
  rcases closed with rfl | ⟨init, last, rfl, notText⟩
  · obtain rfl := nested.eq_nil_iff.1 rfl
    rfl
  · obtain ⟨init', item, rfl, other⟩ := nested.last_item (by simp) notText
    rw [List.append_assoc, List.singleton_append, Chunk.join_append_cons other,
      Chunk.join_append_cons other]
    simp [Chunk.join]

/-- A conditional around tokens is one chunk with theirs inside. -/
theorem Makes.conditional (makes : Makes ctx tokens chunks) {source : List Char} {offset : Nat}
    {pos : Position} (condition : (Grammar.parseCondition ctx (pos.right offset) source).2 = [])
    (pos' : Position) :
    Makes ctx (.ifMark source offset pos :: (tokens ++ [.endifMark pos']))
      [.conditional (Grammar.parseCondition ctx (pos.right offset) source).1
        (.plain ctx.owner chunks) none] := by
  obtain ⟨items, nested, clean, rfl⟩ := makes_iff.1 makes
  have whole := Nested.conditional source offset pos nested (.endif pos') .nil
  rw [List.append_nil] at whole
  exact makes_iff.2 ⟨_, whole, by simp [Token.errors, clean, condition], rfl⟩

end Assembly

theorem ParseContext.parallel_self (ctx : ParseContext) : ctx.Parallel id (fun _ => True) ctx :=
  ⟨fun _ => rfl, fun _ _ _ => rfl, fun _ _ _ => Iff.rfl⟩

/-! ## Sources of whole lines -/

section Sources

variable {d : Delimiters} {name : String} {pos : Position} {s t : List Char} {tokens : List Token}
  {chunks : List Chunk}

/-- The source is split into tokens, at the place given, that compile to the chunks. -/
def CompilesAt (d : Delimiters) (name : String) (pos : Position) (s : List Char)
    (chunks : List Chunk) (tokens : List Token) : Prop :=
  Token.pieces d pos s = .ok tokens ∧
    Assembly.Makes ⟨name, compileChunks d⟩ (Token.joinTexts tokens) chunks

theorem CompilesAt.compileChunks_eq (compiles : CompilesAt d name .start s chunks tokens) :
    compileChunks d name s = (chunks, []) := by
  obtain ⟨read, makes⟩ := compiles
  have split : Token.ofSource d s = .ok (Token.joinTexts tokens) :=
    Token.ofSource_eq_ok_iff.2 ⟨tokens, read, rfl⟩
  obtain ⟨same, clean⟩ := Stencil.compileChunks_eq split name
  rw [show Assembly.ofTokens _ _ = (chunks, []) from makes] at same clean
  exact Prod.ext same (clean.2 rfl)

/-- A source that compiles does so at the start of any line. -/
theorem compilesAt_of_clean (clean : (compileChunks d name s).2 = []) (lineStart : pos.column = 1) :
    ∃ tokens, CompilesAt d name pos s (compileChunks d name s).1 tokens := by
  rcases read : Token.pieces d .start s with e | tokens
  · have broken : Token.ofSource d s = .error e := by
      rw [Token.ofSource, read]
      rfl
    rw [compileChunks_of_error broken] at clean
    cases clean
  · have split : Token.ofSource d s = .ok (Token.joinTexts tokens) :=
      Token.ofSource_eq_ok_iff.2 ⟨tokens, read, rfl⟩
    obtain ⟨tokens', read', moved⟩ := Token.pieces_moved (.inl lineStart.symm) read
    have moved : (Token.joinTexts tokens).map Token.unplaced =
        (Token.joinTexts tokens').map Token.unplaced := by
      rw [Token.unplaced_joinTexts, Token.unplaced_joinTexts, moved]
    have fitting (token : Token) : token.InlinesFit fun _ => True := by
      cases token <;> first | trivial | exact fun _ _ _ _ _ => trivial
    obtain ⟨chunks, errors⟩ := Assembly.parallel_ofTokens
      (ParseContext.parallel_self ⟨name, compileChunks d⟩) rfl moved fun token _ => fitting token
    simp only [← Chunk.renameAll_eq, Chunk.renameAll_id] at chunks
    obtain ⟨same, clean'⟩ := Stencil.compileChunks_eq split name
    refine ⟨tokens', read', Prod.ext (chunks.symm.trans same.symm) (errors.1 (clean'.1 clean))⟩

/-- Sources of whole lines compile to the chunks of all of them. -/
theorem compileChunks_append (builtIn : d.IsBuiltIn) (ends : EndsLine s)
    (clean : (compileChunks d name s).2 = []) (clean' : (compileChunks d name t).2 = []) :
    compileChunks d name (s ++ t) =
      ((compileChunks d name s).1 ++ (compileChunks d name t).1, []) := by
  obtain ⟨tokens, read, makes⟩ := compilesAt_of_clean clean (show Position.start.column = 1 from rfl)
  have lineStart : (Position.start.after s).column = 1 := ends.column_after rfl
  obtain ⟨tokens', read', makes'⟩ := compilesAt_of_clean clean' lineStart
  obtain ⟨behind, -, closed⟩ := Token.pieces_append builtIn ends read t
  rw [read'] at behind
  have compiles : CompilesAt d name .start (s ++ t)
      ((compileChunks d name s).1 ++ (compileChunks d name t).1) (tokens ++ tokens') := by
    refine ⟨behind, ?_⟩
    rw [Token.joinTexts_append closed]
    exact makes.append makes' closed.joinTexts
  exact compiles.compileChunks_eq

theorem compileChunks_between {more : List Char} (builtIn : d.IsBuiltIn) (ends : EndsLine s)
    (ends' : EndsLine t) (clean : (compileChunks d name s).2 = [])
    (clean' : (compileChunks d name t).2 = []) (clean'' : (compileChunks d name more).2 = []) :
    compileChunks d name (s ++ (t ++ more)) =
      ((compileChunks d name s).1 ++ ((compileChunks d name t).1 ++ (compileChunks d name more).1),
        []) := by
  have inner := compileChunks_append builtIn ends' clean' clean''
  rw [compileChunks_append builtIn ends clean (congrArg Prod.snd inner), inner]

end Sources

/-! ## Conditionals -/

/-- `if(c)` -/
def ifSource (condition : List Char) : List Char := 'i' :: 'f' :: '(' :: (condition ++ [')'])

def endifSource : List Char := ['e', 'n', 'd', 'i', 'f']

/-- A conditional around a body, with its markers on lines of their own. -/
def Delimiters.block (d : Delimiters) (indent indent' nl condition body : List Char) : List Char :=
  Token.markerLine d indent (ifSource condition) nl ++
    (body ++ Token.markerLine d indent' endifSource nl)

section Conditionals

variable {d : Delimiters} {condition : List Char}

theorem marker?_ifSource (condition : List Char) (pos : Position) :
    Token.marker? (ifSource condition) pos = some (.ifMark condition 3 pos) := by
  have starts : Text.trimStart (ifSource condition) = ifSource condition :=
    List.dropWhile_cons_of_neg (by decide)
  have alone : Text.trim (ifSource condition) = ifSource condition := by
    have ends : ifSource condition = ('i' :: 'f' :: '(' :: condition) ++ [')'] := rfl
    rw [Text.trim, starts, Text.trimEnd, ends, List.reverse_append, List.reverse_singleton,
      List.singleton_append, List.dropWhile_cons_of_neg (by decide), List.reverse_cons,
      List.reverse_reverse]
  have bracket : Text.trimStart ('(' :: (condition ++ [')'])) = '(' :: (condition ++ [')']) :=
    List.dropWhile_cons_of_neg (by decide)
  have closed : Text.dropLastWord? [')'] (condition ++ [')']) = some condition :=
    Text.dropLastWord?_eq_some_iff.2 rfl
  rw [Token.marker?, starts, alone]
  simp [ifSource, Token.conditionOf?, Text.dropWord?, bracket, closed]

theorem payload_ifSource (builtIn : d.IsBuiltIn) {pos : Position} {lexemes : Lexemes}
    (scanned : Lexeme.scan pos condition = .ok lexemes) :
    Token.payload d.stop (.code 0) (ifSource condition ++ [d.stop]) =
      .ok (ifSource condition, []) := by
  have plain {word : List Char} (inside : word.all (['i', 'f', '(', ')'].contains ·) = true) :
      ∀ c ∈ word, Token.Plain d.stop c := fun c member =>
    Token.plain_of_class builtIn (by decide) (List.all_eq_true.1 inside c member)
  have split : ifSource condition ++ [d.stop] =
      ['i', 'f', '('] ++ (condition ++ ([')'] ++ [d.stop])) := by
    simp [ifSource]
  have stops : Token.payload d.stop (.code 0) [d.stop] = .ok ([], []) := by
    rcases builtIn with rfl | rfl <;> rfl
  rw [split, Token.payload_plain (plain rfl), Token.payload_of_scan builtIn scanned,
    Token.payload_plain (plain rfl), stops]
  simp [Token.prepend, Except.map, ifSource]

theorem payload_endifSource (builtIn : d.IsBuiltIn) :
    Token.payload d.stop (.code 0) (endifSource ++ [d.stop]) = .ok (endifSource, []) := by
  rcases builtIn with rfl | rfl <;> rfl

theorem endsLine_markerLine {nl : List Char} (lineFeed : nl = ['\n'] ∨ nl = ['\r', '\n'])
    (indent source : List Char) : EndsLine (Token.markerLine d indent source nl) := by
  right
  rw [List.getLast?_eq_some_iff]
  rcases lineFeed with rfl | rfl
  · exact ⟨indent ++ d.start :: (source ++ [d.stop]), by simp [Token.markerLine]⟩
  · exact ⟨indent ++ d.start :: (source ++ [d.stop, '\r']), by simp [Token.markerLine]⟩

theorem endsLine_block {nl : List Char} (lineFeed : nl = ['\n'] ∨ nl = ['\r', '\n'])
    {body : List Char} (ends : EndsLine body) (indent indent' condition : List Char) :
    EndsLine (d.block indent indent' nl condition body) :=
  (endsLine_markerLine lineFeed _ _).append (ends.append (endsLine_markerLine lineFeed _ _))

theorem scan_of_parseCondition {ctx : ParseContext} {pos : Position}
    (clean : (Grammar.parseCondition ctx pos condition).2 = []) :
    ∃ lexemes, Lexeme.scan pos condition = .ok lexemes := by
  rcases scanned : Lexeme.scan pos condition with e | lexemes
  · rw [Grammar.parseCondition, Grammar.parseAll, scanned] at clean
    cases clean
  · exact ⟨lexemes, rfl⟩

variable {name : String} {indent indent' nl body : List Char}

/-- What a condition in a template's source comes to, and what is wrong with it. -/
def compileCondition (d : Delimiters) (name : String) (condition : List Char) :
    Expr × List TemplateError :=
  Grammar.parseCondition ⟨name, compileChunks d⟩ .start condition

/-- A block compiles to one conditional with the chunks of the body in it. -/
theorem compileChunks_block (builtIn : d.IsBuiltIn) (blanks : indent.all Token.isIndent = true)
    (blanks' : indent'.all Token.isIndent = true) (lineFeed : nl = ['\n'] ∨ nl = ['\r', '\n'])
    (readable : (compileCondition d name condition).2 = []) (ends : EndsLine body)
    (clean : (compileChunks d name body).2 = []) :
    compileChunks d name (d.block indent indent' nl condition body) =
      ([.conditional (compileCondition d name condition).1
        (.plain name (compileChunks d name body).1) none], []) := by
  obtain ⟨lexemes, scanned⟩ := scan_of_parseCondition readable
  have noComment : (ifSource condition).head? ≠ some '!' := by simp [ifSource]
  have noComment' : endifSource.head? ≠ some '!' := by decide
  have first : Position.start.column = 1 := rfl
  obtain ⟨pos₁, whole⟩ := Token.pieces_markerLine builtIn first blanks noComment
    (List.cons_ne_nil 'i' _) lineFeed (payload_ifSource builtIn scanned) (marker?_ifSource condition)
    (body ++ Token.markerLine d indent' endifSource nl)
  generalize place : Position.start.after (Token.markerLine d indent (ifSource condition) nl) =
    start at whole
  have lineStart : start.column = 1 := by
    rw [← place]
    exact (endsLine_markerLine lineFeed _ _).column_after rfl
  obtain ⟨tokens, read, makes⟩ := compilesAt_of_clean clean lineStart
  obtain ⟨behind, -, closed⟩ := Token.pieces_append builtIn ends read
    (Token.markerLine d indent' endifSource nl)
  have lineStart' : (start.after body).column = 1 := ends.column_after lineStart
  obtain ⟨pos₂, last⟩ := Token.pieces_markerLine builtIn lineStart' blanks' noComment'
    (List.cons_ne_nil 'e' _) lineFeed (payload_endifSource builtIn) (fun _ => rfl) []
  rw [List.append_nil, Token.pieces] at last
  rw [last] at behind
  rw [behind] at whole
  have fitting : Lexeme.InlinesFit (fun _ => True) condition := fun _ _ _ _ _ => trivial
  obtain ⟨same, clean'⟩ := Grammar.parallel_parseCondition
    (ParseContext.parallel_self ⟨name, compileChunks d⟩) .start (pos₁.right 3) fitting
  rw [Expr.Alike, Expr.rename_id, Expr.rename_id] at same
  have block := makes.conditional (clean'.1 readable) pos₂
  rw [← same] at block
  have opens : (Token.ifMark condition 3 pos₁).NotText := fun _ => Token.noConfusion
  have closes : (Token.endifMark pos₂).NotText := fun _ => Token.noConfusion
  refine CompilesAt.compileChunks_eq ⟨whole, ?_⟩
  rw [Token.joinTexts_cons opens, Token.joinTexts_append_cons tokens closes]
  exact block

end Conditionals

end Stencil
