import Stencil.Proofs.Assembly.Nesting
/-!
# Chains of conditions

`if c₁ B₁ elseif c₂ B₂ … else E endif` as it is written, arm after arm, and the one chunk that it
makes up wherever it stands: each arm after the first is in the else branch of the one before.
-/
namespace Stencil

open Text (Position)

/-- A marker with a condition, and the tokens up to the next marker of its chain. -/
structure Passage where
  condition : List Char
  /-- Where the condition begins in the marker. -/
  offset : Nat
  pos : Position
  body : List Token

/-- The condition and the body, compiled by themselves. -/
def Passage.arm (ctx : ParseContext) (p : Passage) : Arm :=
  ⟨(Grammar.parseCondition ctx (p.pos.right p.offset) p.condition).1,
    (Assembly.ofTokens ctx p.body).1⟩

theorem Nested.text (ctx : ParseContext) (s : List Char) :
    Nested ctx [.text s] [.literal (String.ofList s)] := .leaf rfl .nil

/-- A condition that is a single name. -/
theorem Grammar.parseCondition_name (ctx : ParseContext) {pos stop : Position}
    {source : List Char} {name : String}
    (scanned : Lexeme.scan pos source = .ok ⟨[⟨.name name, pos⟩], stop⟩) :
    (parseCondition ctx pos source).1 = .attribute name := by
  rw [parseCondition, parseAll, scanned]
  rfl

/-- A conditional with any number of arms and perhaps an else branch. -/
structure Chain where
  first : Passage
  more : List Passage
  /-- The place of the `else` and the tokens behind it. -/
  otherwise? : Option (Position × List Token)
  /-- The place of the `endif`. -/
  stop : Position

namespace Chain

def passages (chain : Chain) : List Passage := chain.first :: chain.more

/-- Tokens from an `elseif`, the `else` or the `endif` on. -/
def ending (otherwise? : Option (Position × List Token)) (stop : Position) :
    List Passage → List Token
  | [] =>
    match otherwise? with
    | some (pos, body) => .elseMark pos :: (body ++ [.endifMark stop])
    | none => [.endifMark stop]
  | p :: more =>
    .elseifMark p.condition p.offset p.pos :: (p.body ++ ending otherwise? stop more)

def tokens (chain : Chain) : List Token :=
  .ifMark chain.first.condition chain.first.offset chain.first.pos ::
    (chain.first.body ++ ending chain.otherwise? chain.stop chain.more)

/-- The markers in the bodies are well nested. -/
structure WellNested (ctx : ParseContext) (chain : Chain) : Prop where
  arms : ∀ p ∈ chain.passages, ∃ items, Nested ctx p.body items
  otherwise : ∀ pos body, chain.otherwise? = some (pos, body) → ∃ items, Nested ctx body items

def arms (ctx : ParseContext) (chain : Chain) : List Arm := chain.passages.map (Passage.arm ctx)

/-- The chunks of the else branch. -/
def otherwise (ctx : ParseContext) (chain : Chain) : Option (List Chunk) :=
  chain.otherwise?.map fun branch => (Assembly.ofTokens ctx branch.2).1

/-- The chunk of the whole conditional. -/
def chunk (ctx : ParseContext) (chain : Chain) : Chunk :=
  Assembly.conditional ctx.owner (chain.first.arm ctx)
    ((chain.otherwise ctx).map (.plain ctx.owner)) (chain.more.map (Passage.arm ctx))

variable {ctx : ParseContext} {chain : Chain}

/-- The tokens behind an arm stand for the else branch in which the further arms are. -/
theorem ending_of_nested {otherwise? : Option (Position × List Token)} (stop : Position)
    (nested : ∀ pos body, otherwise? = some (pos, body) → ∃ items, Nested ctx body items)
    {more : List Passage} (bodies : ∀ p ∈ more, ∃ items, Nested ctx p.body items) :
    ∃ rest, Ending ctx (ending otherwise? stop more) rest ∧ ∀ first : Arm,
      Assembly.conditional ctx.owner first
          ((otherwise?.map fun branch => (Assembly.ofTokens ctx branch.2).1).map
            (.plain ctx.owner))
          (more.map (Passage.arm ctx)) =
        .conditional first.condition (.plain ctx.owner first.body) rest := by
  induction more with
  | nil =>
    cases otherwise? with
    | none => exact ⟨none, .endif stop, fun _ => rfl⟩
    | some branch =>
      obtain ⟨pos, body⟩ := branch
      obtain ⟨items, nested⟩ := nested pos body rfl
      refine ⟨_, .otherwise pos stop nested, fun _ => ?_⟩
      simp only [List.map_nil, Option.map_some, Assembly.conditional,
        Assembly.ofTokens_nested nested]
  | cons p more ih =>
    obtain ⟨own, others⟩ := List.forall_mem_cons.1 bodies
    obtain ⟨items, inner⟩ := own
    obtain ⟨rest, ends, chains⟩ := ih others
    refine ⟨_, .elseif p.condition p.offset p.pos inner ends, fun first => ?_⟩
    rw [List.map_cons, Assembly.conditional, chains]
    simp only [Passage.arm, Assembly.ofTokens_nested inner]

theorem WellNested.nested (wellNested : chain.WellNested ctx) :
    Nested ctx chain.tokens [chain.chunk ctx] := by
  obtain ⟨own, others⟩ := List.forall_mem_cons.1 wellNested.arms
  obtain ⟨items, inner⟩ := own
  obtain ⟨rest, ends, chains⟩ := ending_of_nested chain.stop wellNested.otherwise others
  have whole := Nested.conditional chain.first.condition chain.first.offset chain.first.pos inner
    ends .nil
  rw [List.append_nil] at whole
  have made : chain.chunk ctx = .conditional (chain.first.arm ctx).condition
      (.plain ctx.owner (Chunk.join items)) rest := by
    rw [Chain.chunk, Chain.otherwise, chains]
    simp only [Passage.arm, Assembly.ofTokens_nested inner]
  rwa [made]

/-- The chunk is that of the first arm, and has an else branch unless there is nothing else. -/
theorem exists_chunk (ctx : ParseContext) (chain : Chain) :
    ∃ rest, chain.chunk ctx = .conditional (chain.first.arm ctx).condition
        (.plain ctx.owner (chain.first.arm ctx).body) rest ∧
      rest.isNone = (chain.more.isEmpty && chain.otherwise?.isNone) := by
  obtain ⟨first, more, otherwise?, stop⟩ := chain
  cases more with
  | nil =>
    refine ⟨_, rfl, ?_⟩
    cases otherwise? <;> rfl
  | cons p more => exact ⟨_, rfl, rfl⟩

/-- It adds its chunk to the branch that is open, and what is wrong with its expressions. -/
theorem foldl_tokens (wellNested : chain.WellNested ctx) (a : Assembly) :
    chain.tokens.foldl (Assembly.addToken ctx) a =
      (a.addErrors (chain.tokens.flatMap (Token.errors ctx))).addChunk (chain.chunk ctx) := by
  rw [Assembly.foldl_nested wellNested.nested]
  obtain ⟨rest, made, -⟩ := chain.exists_chunk ctx
  rw [made]
  rfl

end Chain

namespace Assembly

/-! ## The first chunk -/

/-- The chunk comes first outside the conditionals that are open. -/
def Begins (chunk : Chunk) (a : Assembly) : Prop := ∃ rest, a.chunks = chunk :: rest

variable {ctx : ParseContext} {chunk : Chunk} {a : Assembly}

theorem Begins.modifyInnermost {f : List Chunk → List Chunk} (begins : a.Begins chunk)
    (keeps : ∀ rest, ∃ rest', f (chunk :: rest) = chunk :: rest') :
    (a.modifyInnermost f).Begins chunk := by
  obtain ⟨rest, chunks⟩ := begins
  unfold Assembly.modifyInnermost
  split
  · obtain ⟨rest', kept⟩ := keeps rest
    exact ⟨rest', (congrArg f chunks).trans kept⟩
  · exact ⟨rest, chunks⟩

theorem Begins.addChunk (begins : a.Begins chunk) (last : Chunk) :
    (a.addChunk last).Begins chunk :=
  begins.modifyInnermost fun rest => ⟨rest ++ [last], rfl⟩

/-- A text that follows goes into the first chunk only if that is a literal. -/
theorem Begins.addText (begins : a.Begins chunk) (other : ∀ t, chunk ≠ .literal t) (s : String) :
    (a.addText s).Begins chunk := by
  refine begins.modifyInnermost fun rest => ?_
  unfold appendText
  split
  · rename_i t last
    cases rest with
    | nil => exact absurd (Option.some.inj last) (other t)
    | cons second others => exact ⟨_, rfl⟩
  · exact ⟨rest ++ [.literal s], rfl⟩

theorem Begins.closeInnermost (begins : a.Begins chunk) (name : String) :
    (a.closeInnermost name).Begins chunk := by
  unfold Assembly.closeInnermost
  split
  · exact begins
  · rename_i c outer _
    have below : Begins chunk { a with conditionals := outer } := begins
    exact below.addChunk _

theorem Begins.nextBranch (begins : a.Begins chunk) (pos : Position) (marker : InnerMarker)
    (next : List Arm → Arm → OpenBranch) : (a.nextBranch pos marker next).Begins chunk := by
  unfold Assembly.nextBranch
  split
  · exact begins
  · split <;> exact begins

/-- What comes first stays there unless it is a literal. -/
theorem Begins.addToken (begins : a.Begins chunk) (other : ∀ t, chunk ≠ .literal t)
    (token : Token) : (a.addToken ctx token).Begins chunk := by
  cases token with
  | text s => exact begins.addText other _
  | newline s => exact begins.addChunk _
  | expr source indent pos =>
    have reported : (a.addErrors (Grammar.parseAction ctx pos source).2).Begins chunk := begins
    exact reported.addChunk _
  | ifMark source offset pos => exact begins
  | elseifMark source offset pos =>
    let read := Grammar.parseCondition ctx (pos.right offset) source
    have reported : (a.addErrors read.2).Begins chunk := begins
    exact reported.nextBranch _ _ _
  | elseMark pos => exact begins.nextBranch _ _ _
  | endifMark pos =>
    obtain ⟨chunks, _ | ⟨c, outer⟩, errors⟩ := a
    · exact begins
    · exact begins.closeInnermost ctx.owner

theorem Begins.foldl (begins : a.Begins chunk) (other : ∀ t, chunk ≠ .literal t)
    (tokens : List Token) : (tokens.foldl (Assembly.addToken ctx) a).Begins chunk := by
  induction tokens generalizing a with
  | nil => exact begins
  | cons token rest ih => exact ih (begins.addToken other token)

theorem Begins.closeAll (begins : a.Begins chunk) (name : String) (opened : List OpenConditional) :
    (Assembly.closeAll name opened a).Begins chunk := by
  induction opened generalizing a with
  | nil => exact begins
  | cons c outer ih =>
    have reported : (a.report c.pos .missingEndif).Begins chunk := begins
    exact ih (reported.closeInnermost name)

end Assembly

/-- Tokens that begin with a chain make up chunks that begin with its own. -/
theorem Chain.exists_rest {ctx : ParseContext} {chain : Chain} (wellNested : chain.WellNested ctx)
    (more : List Token) :
    ∃ rest, (Assembly.ofTokens ctx (chain.tokens ++ more)).1 = chain.chunk ctx :: rest := by
  have other (t : String) : chain.chunk ctx ≠ .literal t := by
    obtain ⟨rest, made, -⟩ := chain.exists_chunk ctx
    rw [made]
    nofun
  have begun : Assembly.Begins (chain.chunk ctx)
      (chain.tokens.foldl (Assembly.addToken ctx) .empty) := by
    rw [Chain.foldl_tokens wellNested]
    exact ⟨[], rfl⟩
  rw [Assembly.ofTokens, List.foldl_append]
  exact (begun.foldl other more).closeAll _ _

end Stencil
