import Stencil.Template.Assembly
/-!
# The leaves of assembled chunks

What tokens stand for by themselves, and what is left of chunks when their conditionals are taken
away: the leaves from left to right, those of a branch before those of the else branch. Whatever
markers are missing or stray, assembling tokens keeps their leaves and the order of them. Literals
that come to stand next to each other are joined.
-/
namespace Stencil

mutual

def Chunk.leaves : Chunk → List Chunk
  | .literal s => [.literal s]
  | .newline s => [.newline s]
  | .expression e options indent? => [.expression e options indent?]
  | .conditional _ holds otherwise => holds.leaves ++ Template.optionalLeaves otherwise

def Chunk.allLeaves : List Chunk → List Chunk
  | [] => []
  | chunk :: rest => chunk.leaves ++ Chunk.allLeaves rest

def Template.leaves : Template → List Chunk
  | ⟨_, _, chunks, _, _⟩ => Chunk.allLeaves chunks

def Template.optionalLeaves : Option Template → List Chunk
  | none => []
  | some t => t.leaves

end

/-- The chunk that a token stands for by itself; markers stand for none. -/
def Token.leaf? (ctx : ParseContext) : Token → Option Chunk
  | .text s => some (.literal (String.ofList s))
  | .newline s => some (.newline (String.ofList s))
  | .expr source indent? pos =>
    let (e, options) := (Grammar.parseAction ctx pos source).1
    some (.expression e options (indent?.map String.ofList))
  | _ => none

namespace Chunk

variable {s t : String} {chunk : Chunk} {chunks more : List Chunk}

theorem allLeaves_append (chunks more : List Chunk) :
    allLeaves (chunks ++ more) = allLeaves chunks ++ allLeaves more := by
  induction chunks with
  | nil => rfl
  | cons chunk rest ih => rw [List.cons_append, allLeaves, ih, allLeaves, List.append_assoc]

@[simp] theorem allLeaves_nil : allLeaves [] = [] := rfl

@[simp] theorem allLeaves_singleton (chunk : Chunk) : allLeaves [chunk] = chunk.leaves := by
  simp [allLeaves]

@[simp] theorem leaves_plain (name : String) (chunks : List Chunk) :
    (Template.plain name chunks).leaves = allLeaves chunks := by
  simp [Template.plain, Template.leaves]

@[simp] theorem optionalLeaves_some (t : Template) :
    Template.optionalLeaves (some t) = t.leaves := by
  simp [Template.optionalLeaves]

@[simp] theorem optionalLeaves_none : Template.optionalLeaves none = [] := by
  simp [Template.optionalLeaves]

@[simp] theorem leaves_conditional (condition : Expr) (holds : Template)
    (otherwise : Option Template) :
    (Chunk.conditional condition holds otherwise).leaves =
      holds.leaves ++ Template.optionalLeaves otherwise := by
  simp [leaves]

/-! ## Joined literals -/

/-- Puts a literal in front, as part of a literal that stands there. -/
def consLiteral (s : String) : List Chunk → List Chunk
  | .literal t :: rest => .literal (s ++ t) :: rest
  | chunks => .literal s :: chunks

/-- Joins literals that stand next to each other. -/
def join : List Chunk → List Chunk
  | [] => []
  | .literal s :: rest => consLiteral s (join rest)
  | chunk :: rest => chunk :: join rest

/-- Chunks that are the same once their literals are joined. -/
def Merged (chunks more : List Chunk) : Prop := join chunks = join more

theorem consLiteral_consLiteral (s t : String) (chunks : List Chunk) :
    consLiteral s (consLiteral t chunks) = consLiteral (s ++ t) chunks := by
  rcases chunks with _ | ⟨chunk, rest⟩
  · rfl
  · cases chunk with
    | literal u => simp only [consLiteral, String.append_assoc]
    | _ => rfl

theorem join_cons {chunk : Chunk} (other : ∀ t, chunk ≠ .literal t) (rest : List Chunk) :
    join (chunk :: rest) = chunk :: join rest := by
  cases chunk with
  | literal t => exact absurd rfl (other t)
  | _ => rfl

/-- How the rest joins is all that its first part needs to know. -/
theorem join_append_congr (chunks : List Chunk) {more more' : List Chunk}
    (merged : Merged more more') : Merged (chunks ++ more) (chunks ++ more') := by
  unfold Merged at *
  induction chunks with
  | nil => exact merged
  | cons chunk rest ih => cases chunk <;> simp only [List.cons_append, join, ih]

theorem join_consLiteral_append (s : String) (chunks more : List Chunk) :
    join (consLiteral s chunks ++ more) = consLiteral s (join (chunks ++ more)) := by
  cases chunks with
  | nil => rfl
  | cons chunk rest =>
    cases chunk with
    | literal t =>
      rw [List.cons_append, join, consLiteral_consLiteral]
      rfl
    | _ => rfl

theorem join_join_append (chunks more : List Chunk) :
    join (join chunks ++ more) = join (chunks ++ more) := by
  induction chunks with
  | nil => rfl
  | cons chunk rest ih =>
    cases chunk with
    | literal s => rw [join, join_consLiteral_append, ih, List.cons_append, join]
    | _ => simp only [join, List.cons_append, ih]

namespace Merged

variable {chunks' more' : List Chunk}

theorem of_eq (same : chunks = more) : Merged chunks more := congrArg join same

theorem trans {rest : List Chunk} (first : Merged chunks more) (second : Merged more rest) :
    Merged chunks rest :=
  Eq.trans first second

theorem append (first : Merged chunks chunks') (second : Merged more more') :
    Merged (chunks ++ more) (chunks' ++ more') := by
  have left : join (chunks ++ more) = join (chunks' ++ more) := by
    rw [← join_join_append, first, join_join_append]
  exact left.trans (join_append_congr chunks' second)

end Merged

/-! ## One more chunk -/

/-- Adds a chunk behind others; a literal continues one that stands there. -/
def push (chunks : List Chunk) : Chunk → List Chunk
  | .literal s => Assembly.appendText chunks s
  | chunk => chunks ++ [chunk]

theorem appendText_cons_cons (chunk next : Chunk) (rest : List Chunk) (s : String) :
    Assembly.appendText (chunk :: next :: rest) s =
      chunk :: Assembly.appendText (next :: rest) s := by
  unfold Assembly.appendText
  rw [List.getLast?_cons_cons]
  split <;> rfl

theorem consLiteral_appendText (t s : String) (chunks : List Chunk) :
    consLiteral t (Assembly.appendText chunks s) =
      Assembly.appendText (consLiteral t chunks) s := by
  rcases chunks with _ | ⟨chunk, _ | ⟨next, rest⟩⟩
  · rfl
  · cases chunk with
    | literal u => simp [Assembly.appendText, consLiteral, String.append_assoc]
    | _ => rfl
  · rw [appendText_cons_cons]
    cases chunk with
    | literal u => simp only [consLiteral, appendText_cons_cons]
    | _ => simp only [consLiteral, appendText_cons_cons]

theorem appendText_cons {chunk : Chunk} (other : ∀ t, chunk ≠ .literal t) (rest : List Chunk)
    (s : String) :
    Assembly.appendText (chunk :: rest) s = chunk :: Assembly.appendText rest s := by
  cases rest with
  | cons next rest => exact appendText_cons_cons chunk next rest s
  | nil =>
    cases chunk with
    | literal t => exact absurd rfl (other t)
    | _ => rfl

theorem consLiteral_append_cons (s : String) {chunk : Chunk} (other : ∀ t, chunk ≠ .literal t)
    (chunks more : List Chunk) :
    consLiteral s (chunks ++ chunk :: more) = consLiteral s chunks ++ chunk :: more := by
  cases chunks with
  | nil =>
    cases chunk with
    | literal t => exact absurd rfl (other t)
    | _ => rfl
  | cons first rest => cases first <;> rfl

/-- Nothing is joined across a chunk that is no literal. -/
theorem join_append_cons {chunk : Chunk} (other : ∀ t, chunk ≠ .literal t)
    (chunks more : List Chunk) :
    join (chunks ++ chunk :: more) = join chunks ++ chunk :: join more := by
  induction chunks with
  | nil => exact join_cons other more
  | cons first rest ih =>
    cases first with
    | literal s => simp only [List.cons_append, join, ih, consLiteral_append_cons s other]
    | _ => simp only [List.cons_append, join, ih]

/-- Chunks that are added one by one are joined as they come. -/
theorem push_join (chunks : List Chunk) (chunk : Chunk) :
    push (join chunks) chunk = join (chunks ++ [chunk]) := by
  cases chunk with
  | literal s =>
    dsimp only [push]
    induction chunks with
    | nil => rfl
    | cons first rest ih =>
      cases first with
      | literal t => rw [join, ← consLiteral_appendText, ih, List.cons_append, join]
      | _ =>
        rw [List.cons_append, join_cons (by simp), join_cons (by simp), ← ih]
        exact appendText_cons (by simp) _ _
  | _ => exact (join_append_cons (by simp) chunks []).symm

theorem foldl_push (chunks more : List Chunk) :
    more.foldl push (join chunks) = join (chunks ++ more) := by
  induction more generalizing chunks with
  | nil => simp
  | cons chunk rest ih => rw [List.foldl_cons, push_join, ih, List.append_assoc, List.singleton_append]

theorem foldl_push_nil (chunks : List Chunk) : chunks.foldl push [] = join chunks :=
  foldl_push [] chunks

/-- A text that is put behind chunks is one more leaf. -/
theorem merged_appendText (chunks : List Chunk) (s : String) :
    Merged (allLeaves (Assembly.appendText chunks s)) (allLeaves chunks ++ [.literal s]) := by
  unfold Assembly.appendText
  split
  · rename_i t last
    obtain ⟨shorter, rfl⟩ := List.getLast?_eq_some_iff.1 last
    rw [List.dropLast_concat, allLeaves_append, allLeaves_append, List.append_assoc]
    exact join_append_congr _ rfl
  · rw [allLeaves_append]
    exact .of_eq rfl

end Chunk

/-! ## Assemblies -/

open Chunk (Merged)

def Arm.leaves (arm : Arm) : List Chunk := Chunk.allLeaves arm.body

def OpenBranch.leaves : OpenBranch → List Chunk
  | .arm before _ => before.flatMap Arm.leaves
  | .otherwise first more => first.leaves ++ more.flatMap Arm.leaves

def OpenConditional.leaves (c : OpenConditional) : List Chunk :=
  c.branch.leaves ++ Chunk.allLeaves c.body

namespace Assembly

/-- The leaves of all that has been read, the outermost chunks first. -/
def leaves (a : Assembly) : List Chunk :=
  Chunk.allLeaves a.chunks ++ a.conditionals.reverse.flatMap OpenConditional.leaves

variable {a : Assembly}

theorem leaves_cons (chunks : List Chunk) (c : OpenConditional) (outer : List OpenConditional)
    (errors : List TemplateError) :
    leaves ⟨chunks, c :: outer, errors⟩ = leaves ⟨chunks, outer, errors⟩ ++ c.leaves := by
  simp [leaves]

theorem merged_modifyInnermost {f : List Chunk → List Chunk} {more : List Chunk}
    (adds : ∀ chunks, Merged (Chunk.allLeaves (f chunks)) (Chunk.allLeaves chunks ++ more)) :
    Merged (a.modifyInnermost f).leaves (a.leaves ++ more) := by
  obtain ⟨chunks, _ | ⟨c, outer⟩, errors⟩ := a
  · have added : Merged (Chunk.allLeaves (f chunks) ++ [])
        (Chunk.allLeaves chunks ++ more ++ []) := (adds chunks).append rfl
    simpa [modifyInnermost, leaves] using added
  · simp only [modifyInnermost, leaves_cons, OpenConditional.leaves, List.append_assoc]
    exact Chunk.join_append_congr _ (Chunk.join_append_congr _ (adds c.body))

theorem merged_addText (s : String) : Merged (a.addText s).leaves (a.leaves ++ [.literal s]) :=
  merged_modifyInnermost fun chunks => Chunk.merged_appendText chunks s

theorem merged_addChunk (chunk : Chunk) :
    Merged (a.addChunk chunk).leaves (a.leaves ++ chunk.leaves) :=
  merged_modifyInnermost fun chunks => .of_eq (by simp [Chunk.allLeaves_append])

theorem leaves_conditional (name : String) (first : Arm) (otherwise : Option Template)
    (more : List Arm) :
    (conditional name first otherwise more).leaves =
      first.leaves ++ (more.flatMap Arm.leaves ++ Template.optionalLeaves otherwise) := by
  induction more generalizing first with
  | nil => simp [conditional, Arm.leaves]
  | cons next more ih => simp [conditional, ih, Arm.leaves]

/-- Closing a conditional loses nothing of its branches. -/
theorem leaves_closed (name : String) (c : OpenConditional) : (closed name c).leaves = c.leaves := by
  obtain ⟨branch, body, pos⟩ := c
  cases branch with
  | arm before condition =>
    cases before with
    | nil =>
      simp [closed, leaves_conditional, OpenConditional.leaves, OpenBranch.leaves, Arm.leaves]
    | cons first more =>
      simp [closed, leaves_conditional, OpenConditional.leaves, OpenBranch.leaves, Arm.leaves]
  | otherwise first more =>
    simp [closed, leaves_conditional, OpenConditional.leaves, OpenBranch.leaves]

theorem merged_closeInnermost (name : String) : Merged (a.closeInnermost name).leaves a.leaves := by
  obtain ⟨chunks, _ | ⟨c, outer⟩, errors⟩ := a
  · rfl
  · have added := merged_addChunk (a := ⟨chunks, outer, errors⟩) (closed name c)
    rwa [leaves_closed, ← leaves_cons] at added

theorem leaves_nextBranch (pos : Text.Position) (marker : InnerMarker)
    {next : List Arm → Arm → OpenBranch}
    (keeps : ∀ before last, (next before last).leaves = before.flatMap Arm.leaves ++ last.leaves) :
    (a.nextBranch pos marker next).leaves = a.leaves := by
  obtain ⟨chunks, _ | ⟨⟨branch, body, pos'⟩, outer⟩, errors⟩ := a
  · rfl
  · cases branch with
    | otherwise first more => rfl
    | arm before condition =>
      simp only [nextBranch, leaves_cons, OpenConditional.leaves, keeps]
      simp [OpenBranch.leaves, Arm.leaves]

/-- One more token is one more leaf, unless it is a marker. -/
theorem merged_addToken (ctx : ParseContext) (a : Assembly) (token : Token) :
    Merged (a.addToken ctx token).leaves (a.leaves ++ (token.leaf? ctx).toList) := by
  cases token with
  | text s => exact merged_addText _
  | newline s => exact merged_addChunk _
  | expr source indent? pos => exact merged_addChunk _
  | ifMark source offset pos =>
    exact .of_eq (by simp [addToken, Token.leaf?, leaves, addErrors, OpenConditional.leaves,
      OpenBranch.leaves])
  | elseifMark source offset pos =>
    refine .of_eq ((leaves_nextBranch pos .elseif fun before last => ?_).trans ?_)
    · simp [OpenBranch.leaves]
    · simp [Token.leaf?, leaves, addErrors]
  | elseMark pos =>
    refine .of_eq ((leaves_nextBranch pos .otherwise fun before last => ?_).trans ?_)
    · cases before <;> simp [otherwiseAfter, OpenBranch.leaves]
    · simp [Token.leaf?]
  | endifMark pos =>
    unfold addToken
    dsimp only
    split
    · exact .of_eq (by simp [Token.leaf?, leaves, report, addErrors])
    · simpa [Token.leaf?] using merged_closeInnermost ctx.owner

theorem merged_foldl (ctx : ParseContext) (tokens : List Token) (a : Assembly) :
    Merged (tokens.foldl (addToken ctx) a).leaves
      (a.leaves ++ tokens.filterMap (Token.leaf? ctx)) := by
  induction tokens generalizing a with
  | nil => exact .of_eq (by simp)
  | cons token rest ih =>
    refine (ih _).trans (((merged_addToken ctx a token).append rfl).trans (.of_eq ?_))
    cases leaf : token.leaf? ctx with
    | none => simp [leaf]
    | some chunk => simp [leaf]

/-- What is open at the end is closed with all its leaves. -/
theorem merged_closeAll (name : String) (open_ : List OpenConditional) (a : Assembly) :
    Merged (closeAll name open_ a).leaves a.leaves := by
  induction open_ generalizing a with
  | nil => rfl
  | cons c outer ih =>
    refine (ih _).trans ((merged_closeInnermost name).trans (.of_eq ?_))
    simp [report, addErrors, leaves]

theorem conditionals_closeInnermost (name : String) (a : Assembly) :
    (a.closeInnermost name).conditionals.length = a.conditionals.length - 1 := by
  obtain ⟨chunks, _ | ⟨c, _ | ⟨c', outer⟩⟩, errors⟩ := a <;> rfl

theorem conditionals_closeAll (name : String) (open_ : List OpenConditional) (a : Assembly) :
    (closeAll name open_ a).conditionals.length = a.conditionals.length - open_.length := by
  induction open_ generalizing a with
  | nil => rfl
  | cons c outer ih =>
    rw [closeAll, ih, conditionals_closeInnermost, List.length_cons]
    simp only [report, addErrors]
    omega

/-- The leaves of the chunks that tokens make up are those of the tokens. -/
theorem merged_ofTokens (ctx : ParseContext) (tokens : List Token) :
    Merged (Chunk.allLeaves (ofTokens ctx tokens).1) (tokens.filterMap (Token.leaf? ctx)) := by
  let a := tokens.foldl (addToken ctx) empty
  let b := closeAll ctx.owner a.conditionals a
  have nothingOpen : b.conditionals = [] := by
    rw [← List.length_eq_zero_iff, conditionals_closeAll, Nat.sub_self]
  have whole : Chunk.allLeaves (ofTokens ctx tokens).1 = b.leaves := by
    rw [leaves, nothingOpen]
    exact (List.append_nil _).symm
  rw [whole]
  exact (merged_closeAll ctx.owner a.conditionals a).trans (merged_foldl ctx tokens empty)

end Assembly
end Stencil
