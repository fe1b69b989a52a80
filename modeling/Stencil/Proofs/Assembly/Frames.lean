import Stencil.Proofs.Assembly.Nesting
/-!
# Open conditionals as frames

An open conditional may also be kept as a plain list of arms, with the chunks of the open branches
on a stack beside the conditionals. Nothing then keeps a frame from having no arms, and something
has to stand for such a frame. No tokens lead to one: whatever is made of a frame without arms, the
chunks are those of `Assembly`, where a conditional has an arm from the start.
-/
namespace Stencil

open Text (Position)

/-- An open conditional with the chunks of the branches that have ended. -/
structure ConditionalFrame where
  arms : List Arm
  /-- There once `else` has been read. -/
  otherwise? : Option (List Chunk)
  pos : Position

namespace ConditionalFrame

/-- A branch that ends is the else branch once there is one, and that of the last arm before. -/
def store (f : ConditionalFrame) (body : List Chunk) : ConditionalFrame :=
  match f.otherwise? with
  | some _ => { f with otherwise? := some body }
  | none =>
    match f.arms.getLast? with
    | some last => { f with arms := f.arms.dropLast ++ [⟨last.condition, body⟩] }
    | none => f

/-- The arms from the last one on, each in the else branch of the one before it. -/
def build (name : String) (fallback : Chunk) : Option Template → List Arm → Chunk
  | _, [] => fallback
  | otherwise?, [arm] => .conditional arm.condition (.plain name arm.body) otherwise?
  | otherwise?, arm :: before =>
    build name fallback
      (some (.plain name [.conditional arm.condition (.plain name arm.body) otherwise?])) before

/-- The chunk of a conditional; `fallback` if it has no arms. -/
def chunk (name : String) (fallback : Chunk) (f : ConditionalFrame) : Chunk :=
  build name fallback (f.otherwise?.map (.plain name)) f.arms.reverse

theorem build_reverse (name : String) (fallback : Chunk) (before : List Arm) (last : Arm)
    (otherwise? : Option Template) :
    build name fallback otherwise? (before ++ [last]).reverse =
      Assembly.chain name before last otherwise? := by
  induction before using List.reverseRecOn generalizing last otherwise? with
  | nil => rfl
  | append_singleton before next ih =>
    rw [Assembly.chain_append, ← ih]
    simp [build]

end ConditionalFrame

structure FramedAssembly where
  /-- The chunks of the open branches, the innermost first; last those outside every conditional. -/
  branches : List (List Chunk)
  /-- The open conditionals, the innermost first. -/
  frames : List ConditionalFrame
  errors : List TemplateError

namespace FramedAssembly

def empty : FramedAssembly := ⟨[[]], [], []⟩

def addErrors (errors : List TemplateError) (a : FramedAssembly) : FramedAssembly :=
  { a with errors := a.errors ++ errors }

def report (pos : Position) (problem : SourceProblem) : FramedAssembly → FramedAssembly :=
  addErrors [.malformed pos problem]

def modifyInnermost (f : List Chunk → List Chunk) (a : FramedAssembly) : FramedAssembly :=
  match a.branches with
  | [] => a
  | branch :: outer => { a with branches := f branch :: outer }

def innermost (a : FramedAssembly) : List Chunk := a.branches.head?.getD []

/-- Ends the open branch at an `elseif` or an `else`, if it is one that another may follow. -/
def nextBranch (pos : Position) (marker : InnerMarker) (next : ConditionalFrame → ConditionalFrame)
    (a : FramedAssembly) : FramedAssembly :=
  match a.frames with
  | [] => a.report pos (.strayMarker marker)
  | f :: outer =>
    if f.otherwise?.isSome then a.report pos (.markerAfterElse marker)
    else
      { a with
        branches := [] :: a.branches.drop 1, frames := next (f.store a.innermost) :: outer }

def closeInnermost (fallback : Chunk) (name : String) (a : FramedAssembly) : FramedAssembly :=
  match a.frames with
  | [] => a
  | f :: outer =>
    modifyInnermost (· ++ [(f.store a.innermost).chunk name fallback])
      { a with branches := a.branches.drop 1, frames := outer }

def addToken (fallback : Chunk) (ctx : ParseContext) (a : FramedAssembly) : Token → FramedAssembly
  | .text s => a.modifyInnermost (Assembly.appendText · (String.ofList s))
  | .newline s => a.modifyInnermost (· ++ [.newline (String.ofList s)])
  | .expr source indent pos =>
    let ((expr, options), errors) := Grammar.parseAction ctx pos source
    (a.addErrors errors).modifyInnermost
      (· ++ [.expression expr options (indent.map String.ofList)])
  | .ifMark source offset pos =>
    let (condition, errors) := Grammar.parseCondition ctx (pos.right offset) source
    let a := a.addErrors errors
    { a with branches := [] :: a.branches, frames := ⟨[⟨condition, []⟩], none, pos⟩ :: a.frames }
  | .elseifMark source offset pos =>
    let (condition, errors) := Grammar.parseCondition ctx (pos.right offset) source
    (a.addErrors errors).nextBranch pos .elseif fun f =>
      { f with arms := f.arms ++ [⟨condition, []⟩] }
  | .elseMark pos => a.nextBranch pos .otherwise fun f => { f with otherwise? := some [] }
  | .endifMark pos =>
    match a.frames with
    | [] => a.report pos (.strayMarker .endif)
    | _ => a.closeInnermost fallback ctx.owner

def closeAll (fallback : Chunk) (name : String) :
    List ConditionalFrame → FramedAssembly → FramedAssembly
  | [], a => a
  | f :: outer, a =>
    closeAll fallback name outer ((a.report f.pos .missingEndif).closeInnermost fallback name)

/-- The chunks that tokens make up with `fallback` for frames without arms, and their errors. -/
def ofTokens (fallback : Chunk) (ctx : ParseContext) (tokens : List Token) :
    List Chunk × List TemplateError :=
  let a := tokens.foldl (addToken fallback ctx) empty
  let a := closeAll fallback ctx.owner a.frames a
  (a.innermost, a.errors)

end FramedAssembly

/-! ## No frame without arms -/

/-- The frame of an open conditional: the branch that is being read is still empty in it. -/
def OpenConditional.frame (c : OpenConditional) : ConditionalFrame :=
  match c.branch with
  | .arm before condition => ⟨before ++ [⟨condition, []⟩], none, c.pos⟩
  | .otherwise first more => ⟨first :: more, some [], c.pos⟩

theorem OpenConditional.frame_arms_ne_nil (c : OpenConditional) : c.frame.arms ≠ [] := by
  unfold frame
  split
  · simp
  · simp

/-- The chunk of a frame does not depend on the fallback. -/
theorem OpenConditional.chunk_frame (c : OpenConditional) (name : String) (fallback : Chunk) :
    (c.frame.store c.body).chunk name fallback = Assembly.closed name c := by
  obtain ⟨⟨before, condition⟩ | ⟨first, more⟩, body, pos⟩ := c
  · rw [Assembly.closed_arm, ← ConditionalFrame.build_reverse name fallback]
    simp [frame, ConditionalFrame.store, ConditionalFrame.chunk]
  · have chained : Assembly.closed name ⟨.otherwise first more, body, pos⟩ =
        ConditionalFrame.build name fallback (some (.plain name body)) (first :: more).reverse := by
      rcases List.eq_nil_or_concat more with rfl | ⟨init, last, rfl⟩
      · rfl
      · rw [List.concat_eq_append]
        exact (ConditionalFrame.build_reverse name fallback (first :: init) last _).symm
    rw [chained]
    rfl

namespace Assembly

/-- The same with a frame for each open conditional. -/
def framed (a : Assembly) : FramedAssembly :=
  ⟨a.conditionals.map OpenConditional.body ++ [a.chunks], a.conditionals.map OpenConditional.frame,
    a.errors⟩

variable {ctx : ParseContext} (fallback : Chunk) (a : Assembly)

theorem framed_modifyInnermost (f : List Chunk → List Chunk) :
    a.framed.modifyInnermost f = (a.modifyInnermost f).framed := by
  obtain ⟨chunks, _ | ⟨c, outer⟩, errors⟩ := a
  · rfl
  · rfl

theorem framed_nextBranch (pos : Position) (marker : InnerMarker)
    {next : ConditionalFrame → ConditionalFrame} {next' : List Arm → Arm → OpenBranch}
    (follows : ∀ before last pos, next ⟨before ++ [last], none, pos⟩ =
      OpenConditional.frame ⟨next' before last, [], pos⟩) :
    a.framed.nextBranch pos marker next = (a.nextBranch pos marker next').framed := by
  obtain ⟨chunks, _ | ⟨⟨⟨before, condition⟩ | ⟨first, more⟩, body, start⟩, outer⟩, errors⟩ := a
  · rfl
  · have stored : ConditionalFrame.store ⟨before ++ [⟨condition, []⟩], none, start⟩ body =
        ⟨before ++ [⟨condition, body⟩], none, start⟩ := by simp [ConditionalFrame.store]
    have goesOn := follows before ⟨condition, body⟩ start
    rw [← stored] at goesOn
    simp only [framed, FramedAssembly.nextBranch, nextBranch, List.map_cons]
    rw [← goesOn]
    rfl
  · rfl

theorem framed_closeInnermost (name : String) :
    a.framed.closeInnermost fallback name = (a.closeInnermost name).framed := by
  obtain ⟨chunks, _ | ⟨c, outer⟩, errors⟩ := a
  · rfl
  · have closes := framed_modifyInnermost ⟨chunks, outer, errors⟩ (· ++ [closed name c])
    refine Eq.trans ?_ closes
    rw [← c.chunk_frame name fallback]
    rfl

/-- One more token, with frames and without. -/
theorem framed_addToken (token : Token) :
    a.framed.addToken fallback ctx token = (a.addToken ctx token).framed := by
  cases token with
  | text s => exact framed_modifyInnermost a _
  | newline s => exact framed_modifyInnermost a _
  | expr source indent pos =>
    exact framed_modifyInnermost (a.addErrors (Grammar.parseAction ctx pos source).2) _
  | ifMark source offset pos => rfl
  | elseifMark source offset pos =>
    unfold FramedAssembly.addToken addToken
    dsimp only
    refine framed_nextBranch (a.addErrors _) pos .elseif fun before last start => ?_
    rfl
  | elseMark pos =>
    unfold FramedAssembly.addToken addToken
    refine framed_nextBranch a pos .otherwise fun before last start => ?_
    cases before <;> rfl
  | endifMark pos =>
    obtain ⟨chunks, _ | ⟨c, outer⟩, errors⟩ := a
    · rfl
    · exact framed_closeInnermost fallback ⟨chunks, c :: outer, errors⟩ ctx.owner

theorem framed_foldl (tokens : List Token) :
    tokens.foldl (FramedAssembly.addToken fallback ctx) a.framed =
      (tokens.foldl (addToken ctx) a).framed := by
  induction tokens generalizing a with
  | nil => rfl
  | cons token tokens ih => rw [List.foldl_cons, List.foldl_cons, framed_addToken, ih]

theorem framed_closeAll (name : String) (outer : List OpenConditional) :
    FramedAssembly.closeAll fallback name (outer.map OpenConditional.frame) a.framed =
      (closeAll name outer a).framed := by
  induction outer generalizing a with
  | nil => rfl
  | cons c outer ih =>
    have place : c.frame.pos = c.pos := by
      unfold OpenConditional.frame
      split <;> rfl
    have reported : a.framed.report c.frame.pos .missingEndif =
        (a.report c.pos .missingEndif).framed := by
      rw [place]
      rfl
    rw [List.map_cons, FramedAssembly.closeAll, reported, framed_closeInnermost, ih, closeAll]

/-- Every frame that tokens lead to has an arm, so nothing comes of the fallback. -/
theorem frames_have_arms (tokens : List Token) :
    ∀ f ∈ (tokens.foldl (FramedAssembly.addToken fallback ctx) .empty).frames, f.arms ≠ [] := by
  have same : tokens.foldl (FramedAssembly.addToken fallback ctx) .empty =
      (tokens.foldl (addToken ctx) empty).framed := framed_foldl fallback empty tokens
  intro f member
  rw [same] at member
  obtain ⟨c, -, rfl⟩ := List.mem_map.1 member
  exact c.frame_arms_ne_nil

/-- What stands for a frame without arms has no part in the chunks. -/
theorem framed_ofTokens (ctx : ParseContext) (tokens : List Token) :
    FramedAssembly.ofTokens fallback ctx tokens = ofTokens ctx tokens := by
  let read := tokens.foldl (addToken ctx) empty
  have run : tokens.foldl (FramedAssembly.addToken fallback ctx) .empty = read.framed :=
    framed_foldl fallback empty tokens
  have closed := framed_closeAll fallback read ctx.owner read.conditionals
  have none : (closeAll ctx.owner read.conditionals read).conditionals = [] := by
    rw [← List.length_eq_zero_iff, conditionals_closeAll, Nat.sub_self]
  have result (a : Assembly) (ended : a.conditionals = []) :
      (a.framed.innermost, a.framed.errors) = (a.chunks, a.errors) := by
    rw [framed, ended]
    rfl
  rw [FramedAssembly.ofTokens, run]
  exact (congrArg (fun a => (a.innermost, a.errors)) closed).trans (result _ none)

end Assembly

/-- Compiles a source and the templates written in place in it with frames. -/
def compileFramed (fallback : Chunk) (d : Delimiters) (name : String) (source : List Char) :
    List Chunk × List TemplateError :=
  match Token.ofSource d source with
  | .error e => ([], [e])
  | .ok tokens =>
    let compileInline (inlineName : String) (body : List Char) :
        List Chunk × List TemplateError :=
      if _shorter : body.length < source.length then compileFramed fallback d inlineName body
      else ([], [])
    FramedAssembly.ofTokens fallback ⟨name, compileInline⟩ tokens
termination_by source.length

theorem compileFramed_eq (fallback : Chunk) (d : Delimiters) (name : String)
    (source : List Char) : compileFramed fallback d name source = compileChunks d name source := by
  induction size : source.length using Nat.strong_induction_on generalizing name source with
  | _ n ih =>
  subst size
  have inner (inlineName : String) (body : List Char) :
      (if _shorter : body.length < source.length then compileFramed fallback d inlineName body
        else ([], [])) =
      if _shorter : body.length < source.length then compileChunks d inlineName body
      else ([], []) := by
    split
    · rename_i shorter
      exact ih body.length shorter inlineName body rfl
    · rfl
  rw [compileFramed, compileChunks]
  cases Token.ofSource d source with
  | error e => rfl
  | ok tokens =>
    dsimp only
    rw [Assembly.framed_ofTokens]
    simp only [inner]

end Stencil
