import Stencil.Proofs.Cursor.Basic
/-!
# Cursors and lists

A walk follows a parser if the cursor, moved over the tokens, does what the parser does to the list
of the lexemes that are left: it is never stuck, comes to the same result with the same errors, and
stops behind the lexemes that the parser has consumed. Each phrase is followed where fewer than some
number of lexemes are left, one more than for the phrases inside it; so a token has been consumed
whenever a phrase begins inside another one.
-/
namespace Stencil

open Text (Position)

/-- The cursor of a parser that has consumed the lexemes `front`. -/
def Cursor.after (front : List Lexeme) (st : ParseState) : Cursor :=
  ⟨(front ++ st.rest).map (fun l => (some l.symbol, l.pos)) ++ [(none, st.stop)], front.length,
    st.errors, st.inlines⟩

namespace Cursor

variable {front : List Lexeme} {st : ParseState} {l : Lexeme} {rest : List Lexeme}

theorem token?_after : (after front st).token? =
    some (st.symbols.head?, (st.rest.head?.map Lexeme.pos).getD st.stop) := by
  have behind : (after front st).token? =
      (st.rest.map (fun l => (some l.symbol, l.pos)) ++ [(none, st.stop)])[0]? := by
    rw [token?, after, List.map_append, List.append_assoc, List.getElem?_append_right (by simp)]
    simp
  rw [behind]
  cases next : st.rest <;> simp [ParseState.symbols, next]

theorem left_after : (after front st).left = st.rest.length + 1 := by
  simp only [left, after, List.length_append, List.length_map, List.length_singleton]
  omega

theorem forward_after (next : st.rest = l :: rest) :
    (after front st).forward = after (front ++ [l]) { st with rest } := by
  have inside : front.length < (front ++ l :: rest).length + 1 - 1 := by simp
  simp only [after, forward, next, List.length_append, List.length_map, List.length_singleton] at *
  rw [if_pos inside]
  simp

end Cursor

theorem ParseState.length_behind (st : ParseState) {symbol : Symbol}
    (next : st.symbols.head? = some symbol) : st.behind.rest.length < st.rest.length := by
  cases found : st.rest with
  | nil => simp [symbols, found] at next
  | cons l rest => simp [found]

/-- Fewer than `n` lexemes are left, and the inline templates in them fit. -/
structure ParseState.Ahead (fits : List Char → Prop) (n : Nat) (st : ParseState) : Prop where
  few : st.rest.length < n
  fitting {raw : List Char} : .inline raw ∈ st.symbols → fits raw

namespace ParseState.Ahead

variable {fits : List Char → Prop} {n : Nat} {st st' : ParseState} {taken : List Lexeme}

theorem behind (ahead : st.Ahead fits n) (split : st.rest = taken ++ st'.rest) :
    st'.Ahead fits n where
  few := by
    have few := ahead.few
    rw [split, List.length_append] at few
    omega
  fitting member := ahead.fitting (by
    rw [symbols, split, List.map_append]
    exact List.mem_append_right _ member)

theorem fewer (ahead : st.Ahead fits (n + 1)) (split : st.rest = taken ++ st'.rest)
    (less : st'.rest.length < st.rest.length) : st'.Ahead fits n where
  few := by
    have few := ahead.few
    omega
  fitting := (ahead.behind split).fitting

theorem mono {m : Nat} (ahead : st.Ahead fits m) (le : m ≤ n) : st.Ahead fits n :=
  ⟨Nat.lt_of_lt_of_le ahead.few le, ahead.fitting⟩

end ParseState.Ahead

namespace Walk

open ParseState (Ahead)

variable {α β : Type} {fits : List Char → Prop} {n m : Nat} {w : Walk α} {p : Parse α}
  {f : α → Walk β} {g : α → Parse β} {front : List Lexeme} {st : ParseState}

/-- The walk does from the cursor behind `front` on what the parser does from the state on. -/
def Mirrors (w : Walk α) (p : Parse α) (front : List Lexeme) (st : ParseState) : Prop :=
  ∃ taken, st.rest = taken ++ (p st).2.rest ∧
    w (.after front st) = some ((p st).1, .after (front ++ taken) (p st).2)

def Follows (fits : List Char → Prop) (n : Nat) (w : Walk α) (p : Parse α) : Prop :=
  ∀ front st, st.Ahead fits n → Mirrors w p front st

/-- The same where the symbol is next, or the end. -/
def FollowsAt (fits : List Char → Prop) (n : Nat) (next : Option Symbol) (w : Walk α)
    (p : Parse α) : Prop :=
  ∀ front st, st.Ahead fits n → st.symbols.head? = next → Mirrors w p front st

theorem Mirrors.still {r : Option α} (walked : w (.after front st) = some (r, .after front st))
    (parsed : p st = (r, st)) : Mirrors w p front st := by
  refine ⟨[], ?_, ?_⟩
  · rw [parsed]
    rfl
  · rw [walked, parsed, List.append_nil]

theorem Mirrors.bind (first : Mirrors w p front st)
    (next : ∀ a taken, (p st).1 = some a → st.rest = taken ++ (p st).2.rest →
      Mirrors (f a) (g a) (front ++ taken) (p st).2) :
    Mirrors (w >>= f) (p >>= g) front st := by
  obtain ⟨taken, split, walked⟩ := first
  unfold Mirrors
  rw [bind_apply, walked, Parse.bind_apply]
  generalize p st = r at split next
  obtain ⟨a?, st'⟩ := r
  cases a? with
  | none => exact ⟨taken, split, rfl⟩
  | some a =>
    obtain ⟨more, split', walked'⟩ := next a taken rfl split
    refine ⟨taken ++ more, ?_, ?_⟩
    · rw [split, List.append_assoc, ← split']
    · rw [← List.append_assoc]
      exact walked'

namespace Follows

theorem mono (follows : Follows fits m w p) (le : n ≤ m) : Follows fits n w p :=
  fun front st ahead => follows front st (ahead.mono le)

theorem inner (follows : Follows fits (n + 1) w p) : Follows fits n w p :=
  follows.mono (Nat.le_succ n)

theorem at_ {next : Option Symbol} (follows : Follows fits n w p) : FollowsAt fits n next w p :=
  fun front st ahead _ => follows front st ahead

theorem pure (a : α) : Follows fits n (Pure.pure a) (Pure.pure a) := fun _ _ _ => .still rfl rfl

theorem giveUp : Follows fits n (Walk.giveUp : Walk α) Parse.giveUp := fun _ _ _ => .still rfl rfl

theorem bind (first : Follows fits n w p) (next : ∀ a, Follows fits n (f a) (g a)) :
    Follows fits n (w >>= f) (p >>= g) :=
  fun front st ahead => (first front st ahead).bind fun a _ _ split =>
    next a _ _ (ahead.behind split)

theorem attempt (follows : Follows fits n w p) :
    Follows fits n (Walk.attempt w) (Parse.attempt p) := by
  intro front st ahead
  obtain ⟨taken, split, walked⟩ := follows front st ahead
  refine ⟨taken, split, ?_⟩
  rw [Walk.attempt, walked]
  rfl

/-! ## Looking ahead -/

theorem peek : Follows fits n Walk.peek Parse.peek := by
  intro front st _
  refine .still (r := some st.symbols.head?) ?_ ?_
  · rw [Walk.peek, Cursor.token?_after]
    rfl
  · rw [Parse.peek, ParseState.symbols, List.head?_map]

theorem position : Follows fits n Walk.position Parse.position := by
  intro front st _
  refine .still ?_ rfl
  rw [Walk.position, Cursor.token?_after]
  rfl

/-- What follows depends on the symbol that has been looked at. -/
theorem bind_peek {f : Option Symbol → Walk β} {g : Option Symbol → Parse β}
    (next : ∀ found, FollowsAt fits n found (f found) (g found)) :
    Follows fits n (Walk.peek >>= f) (Parse.peek >>= g) := by
  intro front st ahead
  refine (peek front st ahead).bind fun found taken looked split => ?_
  have same : st.symbols.head? = found := by
    rw [ParseState.symbols, List.head?_map]
    exact Option.some.inj looked
  exact next found (front ++ taken) st ahead same

theorem peekSecond : Follows fits n Walk.peekSecond Parse.peekSecond := by
  intro front st _
  refine .still (r := some ((st.rest.drop 1).head?.map Lexeme.symbol)) ?_ rfl
  rw [Walk.peekSecond, Cursor.after]
  rcases next : st.rest with _ | ⟨l, _ | ⟨l', rest⟩⟩
  · simp
  · simp
  · simp

/-! ## Moving on -/

theorem advance : Follows fits n Walk.advance Parse.advance := by
  intro front st _
  cases next : st.rest with
  | nil => exact ⟨[], by simp [Parse.advance, next], by
      simp [Walk.advance, Parse.advance, Cursor.after, Cursor.forward, next]⟩
  | cons l rest =>
    refine ⟨[l], by simp [Parse.advance, next], ?_⟩
    rw [Walk.advance, Cursor.forward_after next]
    simp [Parse.advance, next]

theorem eat (mark : Mark) : Follows fits n (Walk.eat mark) (Parse.eat mark) := by
  refine bind_peek fun found => ?_
  split
  · exact (advance.bind fun _ => pure true).at_
  · exact (pure false).at_

theorem report (problem : SourceProblem) :
    Follows fits n (Walk.report problem) (Parse.report problem) := by
  refine position.bind fun pos => ?_
  intro front st _
  exact ⟨[], rfl, by rw [List.append_nil]; rfl⟩

theorem fail (problem : SourceProblem) :
    Follows fits n (Walk.fail problem : Walk α) (Parse.fail problem) :=
  (report problem).bind fun _ => giveUp

theorem expect (mark : Mark) : Follows fits n (Walk.expect mark) (Parse.expect mark) := by
  refine (eat mark).bind fun eaten => ?_
  split
  · exact pure ()
  · exact peek.bind fun _ => fail _

theorem expectName : Follows fits n Walk.expectName Parse.expectName := by
  refine bind_peek fun found? => Follows.at_ ?_
  cases found? with
  | none => exact fail _
  | some found =>
    cases found with
    | name s => exact advance.bind fun _ => pure s
    | _ => exact fail _

theorem expectEnd : Follows fits n Walk.expectEnd Parse.expectEnd := by
  refine bind_peek fun found? => Follows.at_ ?_
  cases found? with
  | none => exact pure ()
  | some found => exact report _

/-! ## What comes behind a symbol that has been consumed -/

theorem bind_expect {mark : Mark} {f : Unit → Walk β} {g : Unit → Parse β}
    (next : ∀ u, Follows fits n (f u) (g u)) :
    Follows fits (n + 1) (Walk.expect mark >>= f) (Parse.expect mark >>= g) := by
  intro front st ahead
  refine (expect mark front st ahead).bind fun u taken ran split =>
    next u _ _ (ahead.fewer split ?_)
  by_cases starts : Symbol.Starts mark st.symbols
  · rw [Parse.expect, Parse.bind_eat_of_starts _ starts]
    exact st.length_behind starts
  · rw [Parse.expect, Parse.bind_eat_of_not_starts _ starts] at ran
    cases ran

theorem length_of_eat {mark : Mark} (eaten : (Parse.eat mark st).1 = some true) :
    (Parse.eat mark st).2.rest.length < st.rest.length := by
  rw [Parse.eat, Parse.bind_peek] at eaten ⊢
  by_cases starts : st.symbols.head? = some (.mark mark)
  · rw [if_pos starts]
    exact st.length_behind starts
  · rw [if_neg starts] at eaten
    cases eaten

end Follows

/-! ## Taking a symbol and stepping back to it -/

theorem bind_of_some {c c' : Cursor} {a : α} (f : α → Walk β) (walked : w c = some (some a, c')) :
    (w >>= f) c = f a c' := by
  rw [bind_apply, walked]

theorem Mirrors.congr {w' : Walk α} {p' : Parse α} (mirrors : Mirrors w' p' front st)
    (walked : w (.after front st) = w' (.after front st)) (parsed : p st = p' st) :
    Mirrors w p front st := by
  obtain ⟨taken, split, same⟩ := mirrors
  rw [← parsed] at split same
  exact ⟨taken, split, walked.trans same⟩

section Next

variable {l : Lexeme} {rest : List Lexeme} (next : st.rest = l :: rest)
include next

theorem Mirrors.consumed {w' : Walk α} {p' : Parse α}
    (mirrors : Mirrors w' p' (front ++ [l]) { st with rest })
    (walked : w (.after front st) = w' (.after (front ++ [l]) { st with rest }))
    (parsed : p st = p' { st with rest }) : Mirrors w p front st := by
  obtain ⟨taken, split, same⟩ := mirrors
  rw [← parsed] at split same
  refine ⟨l :: taken, ?_, ?_⟩
  · rw [next, List.cons_append, ← split]
  · rw [walked, same, List.append_assoc]
    rfl

theorem take_after : take (.after front st) =
    some (some (some l.symbol), .after (front ++ [l]) { st with rest }) := by
  have looked : peek (.after front st) = some (some (some l.symbol), .after front st) := by
    rw [peek, Cursor.token?_after, ParseState.symbols, next]
    rfl
  rw [take, bind_of_some _ looked, ← Cursor.forward_after next]
  rfl

theorem stepBack_after : stepBack (.after (front ++ [l]) { st with rest }) =
    some (some (), .after front st) := by
  simp [stepBack, Cursor.after, next]

end Next

theorem take_after_end (next : st.rest = []) :
    take (.after front st) = some (some none, .after front st) := by
  have looked : peek (.after front st) = some (some none, .after front st) := by
    rw [peek, Cursor.token?_after, ParseState.symbols, next]
    rfl
  have still : (Cursor.after front st).forward = .after front st := by
    simp [Cursor.forward, Cursor.after, next]
  rw [take, bind_of_some _ looked]
  change some (some none, (Cursor.after front st).forward) = _
  rw [still]

/-! ## Loops -/

theorem skipTo_cons (marks : List Mark) (depth : Nat) (l : Lexeme) (rest : List Lexeme) :
    Parse.skipTo marks depth (l :: rest) =
      if depth = 0 ∧ marks.any (fun m => l.symbol = .mark m) then l :: rest
      else
        match depthBehind? l.symbol depth with
        | none => l :: rest
        | some depth => Parse.skipTo marks depth rest := by
  obtain ⟨symbol, pos⟩ := l
  cases symbol with
  | mark mark => cases mark <;> cases depth <;> rfl
  | _ => rfl

/-- Skipping goes on only behind a symbol that it has consumed. -/
theorem skipTo_after (marks : List Mark) (depth : Nat) (front rest : List Lexeme) (stop : Position)
    (errors : List TemplateError) (inlines : Nat) :
    ∃ taken, rest = taken ++ Parse.skipTo marks depth rest ∧
      skipTo marks depth (.after front ⟨rest, stop, errors, inlines⟩) =
        some (some (), .after (front ++ taken)
          ⟨Parse.skipTo marks depth rest, stop, errors, inlines⟩) := by
  induction rest generalizing depth front with
  | nil =>
    refine ⟨[], rfl, ?_⟩
    rw [skipTo, Cursor.token?_after, List.append_nil]
    rfl
  | cons l rest ih =>
    have next : (⟨l :: rest, stop, errors, inlines⟩ : ParseState).rest = l :: rest := rfl
    have fewer : (Cursor.after front ⟨l :: rest, stop, errors, inlines⟩).forward.left <
        (Cursor.after front ⟨l :: rest, stop, errors, inlines⟩).left := by
      rw [Cursor.forward_after next, Cursor.left_after, Cursor.left_after]
      exact Nat.lt_succ_self _
    rw [skipTo, Cursor.token?_after, skipTo_cons]
    simp only [ParseState.symbols, List.map_cons, List.head?_cons]
    by_cases stops : depth = 0 ∧ (marks.any fun m => decide (l.symbol = .mark m)) = true
    · rw [if_pos stops, if_pos stops]
      exact ⟨[], rfl, by rw [List.append_nil]⟩
    · rw [if_neg stops, if_neg stops]
      cases depthBehind? l.symbol depth with
      | none => exact ⟨[], rfl, by rw [List.append_nil]⟩
      | some depth =>
        obtain ⟨taken, split, walked⟩ := ih depth (front ++ [l])
        refine ⟨l :: taken, by rw [List.cons_append, ← split], ?_⟩
        simp only [dif_pos fewer]
        rw [Cursor.forward_after next, walked, List.append_assoc]
        rfl

theorem Follows.synchronize (marks : List Mark) :
    Follows fits n (Walk.synchronize marks) (Parse.synchronize marks) :=
  fun front st _ => skipTo_after marks 0 front st.rest st.stop st.errors st.inlines

/-- A loop that may go round as often as there are lexemes has enough turns. -/
theorem chain_eq {mark : Mark} {next : α → Parse α} {steps : Nat}
    (enough : st.rest.length ≤ steps) (a : α) :
    Parse.chain mark next steps a st = (do
      if ← Parse.eat mark then Parse.chain mark next (steps - 1) (← next a)
      else pure a) st := by
  cases steps with
  | zero =>
    have none : ¬ Symbol.Starts mark st.symbols := by
      have nothing : st.rest = [] := List.eq_nil_of_length_eq_zero (Nat.le_zero.1 enough)
      simp [Symbol.Starts, ParseState.symbols, nothing]
    rw [Parse.bind_eat_of_not_starts _ none]
    rfl
  | succ steps => rfl

/-- Each turn of a loop has consumed the mark that it goes on behind. -/
theorem Follows.repeated {mark : Mark} {next : α → Walk α} {next' : α → Parse α}
    (turn : ∀ a, Follows fits n (next a) (next' a)) (a : α) :
    Follows fits (n + 1) (Walk.repeated mark next a) (Parse.repeated mark next' a) := by
  suffices ∀ (length steps : Nat) (a : α) (front : List Lexeme) (st : ParseState),
      st.Ahead fits (n + 1) → st.rest.length = length → length ≤ steps →
      Mirrors (Walk.repeated mark next a) (Parse.chain mark next' steps a) front st from
    fun front st ahead => this st.rest.length _ a front st ahead rfl (Nat.le_refl _)
  -- On the lexemes that are left; the turns that the parser allows only have to be enough.
  intro length
  induction length using Nat.strongRecOn with
  | ind length ih =>
    intro steps a front st ahead same enough
    refine Mirrors.congr ?_ (by rw [Walk.repeated]) (chain_eq (same ▸ enough) a)
    refine (Follows.eat mark front st ahead).bind fun eaten taken ran split => ?_
    cases eaten with
    | false => exact Follows.pure a _ _ (ahead.behind split)
    | true =>
      have fewer := Follows.length_of_eat ran
      refine (turn a _ _ (ahead.fewer split fewer)).bind fun b more _ split' => ?_
      have shorter := congrArg List.length split'
      rw [List.length_append] at shorter
      have onward := ih _ (by omega) (steps - 1) b (front ++ taken ++ more) _
        ((ahead.behind split).behind split') rfl (by omega)
      refine onward.congr (dif_pos ?_) rfl
      rw [Cursor.left_after, Cursor.left_after]
      omega

end Walk
end Stencil
