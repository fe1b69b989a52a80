import Stencil.Proofs.Grammar.Lookahead
/-!
# What a parser reads

A parser with recovery goes on after an error, so what it returns says little. `Reading` says what
it has read in case that it has recorded nothing: errors are never taken back, and from a parser
that may have recorded some, nothing is asked but that it does not go back in the lexemes.
-/
namespace Stencil

open Stencil.Symbol (Starts StartsBinding)

/-- `o` comes of a parser that began in the state `st`: unless it has recorded an error, it has
succeeded, and `Q` relates the result and the symbols that it left. -/
structure Reading {α : Type} (st : ParseState) (o : Option α × ParseState)
    (Q : α → List Symbol → Prop) : Prop where
  consumes : o.2.rest.length ≤ st.rest.length
  keeps : st.errors.length ≤ o.2.errors.length
  reads : o.2.errors.length = st.errors.length → ∃ a, o.1 = some a ∧ Q a o.2.symbols

namespace Reading

open Parse

variable {α β : Type} {st : ParseState} {Q : α → List Symbol → Prop} {R : β → List Symbol → Prop}

/-- What is read behind the first symbols of a state is read from that state too. -/
theorem widen {st' : ParseState} {o : Option α × ParseState} {Q' : α → List Symbol → Prop}
    (reading : Reading st' o Q) (shorter : st'.rest.length ≤ st.rest.length)
    (same : st'.errors = st.errors) (weaker : ∀ a r, Q a r → Q' a r) : Reading st o Q' where
  consumes := Nat.le_trans reading.consumes shorter
  keeps := same ▸ reading.keeps
  reads unchanged := by
    obtain ⟨a, succeeded, related⟩ := reading.reads (same ▸ unchanged)
    exact ⟨a, succeeded, weaker a _ related⟩

theorem weaken {o : Option α × ParseState} {Q' : α → List Symbol → Prop} (reading : Reading st o Q)
    (weaker : ∀ a r, Q a r → Q' a r) : Reading st o Q' :=
  reading.widen (Nat.le_refl _) rfl weaker

theorem of_eq {o o' : Option α × ParseState} (same : o = o') (reading : Reading st o' Q) :
    Reading st o Q := same ▸ reading

/-- From a recorded error on nothing is asked of what is read. -/
theorem of_recorded {o : Option α × ParseState} (consumes : o.2.rest.length ≤ st.rest.length)
    (recorded : st.errors.length < o.2.errors.length) : Reading st o Q where
  consumes := consumes
  keeps := Nat.le_of_lt recorded
  reads unchanged := by omega

theorem pure {a : α} (related : Q a st.symbols) : Reading st ((Pure.pure a : Parse α) st) Q where
  consumes := Nat.le_refl _
  keeps := Nat.le_refl _
  reads _ := ⟨a, rfl, related⟩

theorem bind {p : Parse α} {f : α → Parse β} (first : Reading st (p st) Q)
    (next : ∀ a st', st'.rest.length ≤ st.rest.length →
      Reading st' (f a st') fun b r => Q a st'.symbols → R b r) :
    Reading st ((p >>= f) st) R := by
  rw [bind_apply]
  obtain ⟨consumes, keeps, reads⟩ := first
  rcases outcome : p st with ⟨_ | a, st'⟩
  all_goals
    rw [outcome] at consumes keeps reads
    dsimp only at consumes keeps reads ⊢
  · refine of_recorded consumes (Nat.lt_of_le_of_ne keeps fun unchanged => ?_)
    obtain ⟨a, none, -⟩ := reads unchanged.symm
    cases none
  · obtain ⟨consumes', keeps', reads'⟩ := next a st' consumes
    refine ⟨Nat.le_trans consumes' consumes, Nat.le_trans keeps keeps', fun unchanged => ?_⟩
    obtain ⟨_, found, related⟩ := reads (by omega)
    obtain rfl := Option.some.inj found
    obtain ⟨b, succeeded, related'⟩ := reads' (by omega)
    exact ⟨b, succeeded, related' related⟩

/-- A parser that is attempted records an error where it fails. -/
theorem bind_attempt {p : Parse α} {f : Option α → Parse β} (first : Reading st (p st) Q)
    (succeeds : ∀ a st', st'.rest.length ≤ st.rest.length →
      Reading st' (f (some a) st') fun b r => Q a st'.symbols → R b r)
    (fails : ∀ st', st'.rest.length ≤ st.rest.length →
      Reading st' (f none st') fun _ _ => True) :
    Reading st ((attempt p >>= f) st) R := by
  change Reading st (f (p st).1 (p st).2) R
  obtain ⟨consumes, keeps, reads⟩ := first
  rcases outcome : p st with ⟨_ | a, st'⟩
  all_goals
    rw [outcome] at consumes keeps reads
    dsimp only at consumes keeps reads ⊢
  · obtain ⟨consumes', keeps', -⟩ := fails st' consumes
    have recorded : st.errors.length ≠ st'.errors.length := by
      intro unchanged
      obtain ⟨a, none, -⟩ := reads unchanged.symm
      cases none
    exact of_recorded (Nat.le_trans consumes' consumes) (by omega)
  · obtain ⟨consumes', keeps', reads'⟩ := succeeds a st' consumes
    refine ⟨Nat.le_trans consumes' consumes, Nat.le_trans keeps keeps', fun unchanged => ?_⟩
    obtain ⟨_, found, related⟩ := reads (by omega)
    obtain rfl := Option.some.inj found
    obtain ⟨b, succeeded, related'⟩ := reads' (by omega)
    exact ⟨b, succeeded, related' related⟩

/-! ## Single symbols -/

theorem report_bind (problem : SourceProblem) {f : Unit → Parse β}
    (next : ∀ st', st'.rest = st.rest → Reading st' (f () st') fun _ _ => True) :
    Reading st ((report problem >>= f) st) R := by
  have after := next { st with errors := st.errors ++
    [.malformed ((st.rest.head?.map Lexeme.pos).getD st.stop) problem] } rfl
  refine of_recorded after.consumes (Nat.lt_of_lt_of_le ?_ after.keeps)
  simp

theorem fail (problem : SourceProblem) : Reading st ((Parse.fail problem : Parse α) st) Q := by
  refine of_recorded (Nat.le_refl _) ?_
  simp [Parse.fail, report, record, giveUp, bind_apply, position]

/-- A symbol that is next has been taken. -/
def Took (x : Symbol) (st st' : ParseState) : Prop :=
  st.symbols = x :: st'.symbols ∧ st'.rest.length < st.rest.length ∧ st'.errors = st.errors

theorem after_took {x : Symbol} {st' : ParseState} {o : Option α × ParseState}
    (took : Took x st st') (reading : Reading st' o Q) : Reading st o Q :=
  reading.widen (Nat.le_of_lt took.2.1) took.2.2 fun _ _ related => related

theorem took_drop {x : Symbol} (next : st.symbols.head? = some x) :
    Took x st st.behind := by
  obtain ⟨_ | ⟨l, rest⟩, stop, errors, inlines⟩ := st
  · cases next
  · obtain rfl := Option.some.inj next
    exact ⟨rfl, Nat.lt_succ_self _, rfl⟩

theorem bind_eat (m : Mark) {f : Bool → Parse β}
    (yes : ∀ st', Took (.mark m) st st' → Reading st' (f true st') R)
    (no : ¬ Starts m st.symbols → Reading st (f false st) R) :
    Reading st ((eat m >>= f) st) R := by
  by_cases next : Starts m st.symbols
  · rw [bind_eat_of_starts f next]
    exact after_took (took_drop next) (yes _ (took_drop next))
  · rw [bind_eat_of_not_starts f next]
    exact no next

theorem bind_fail (problem : SourceProblem) {f : α → Parse β} :
    Reading st ((Parse.fail problem >>= f) st) R := by
  refine of_recorded (Nat.le_refl _) ?_
  simp [Parse.fail, report, record, giveUp, bind_apply, position]

theorem bind_expect (m : Mark) {f : Unit → Parse β}
    (next : ∀ st', Took (.mark m) st st' → Reading st' (f () st') R) :
    Reading st ((expect m >>= f) st) R := by
  have run : (expect m >>= f) st = (eat m >>= fun eaten =>
      (if eaten then Pure.pure () else do Parse.fail (.expectedMark m (← peek))) >>= f) st := by
    simp only [expect, bind_apply]
    rcases eat m st with ⟨_ | a, st'⟩ <;> rfl
  rw [run]
  exact bind_eat m next fun _ => bind_fail (f := f) _

theorem bind_expectName {f : String → Parse β}
    (next : ∀ name st', Took (.name name) st st' → Reading st' (f name st') R) :
    Reading st ((expectName >>= f) st) R := by
  obtain ⟨_ | ⟨⟨x, pos⟩, rest⟩, stop, errors, inlines⟩ := st
  · exact bind_fail (f := f) _
  · cases x with
    | name name => exact after_took (took_drop rfl) (next name _ (took_drop rfl))
    | _ => exact bind_fail (f := f) _

/-! ## Repetitions -/

/-- A repetition reads the phrase `T` if each step, behind its mark, reads one more of it. -/
theorem chain {m : Mark} {next : α → Parse α} {T : α → List Symbol → List Symbol → Prop}
    (stop : ∀ a r, T a r r) {bound : Nat}
    (step : ∀ a st, st.rest.length < bound →
      Reading st (next a st) fun b r => ∀ u, T b r u → T a (.mark m :: st.symbols) u)
    (n : Nat) (a : α) (enough : st.rest.length ≤ n) (within : st.rest.length ≤ bound) :
    Reading st (Parse.chain m next n a st) fun _ r => T a st.symbols r := by
  induction n generalizing a st with
  | zero => exact pure (stop a _)
  | succ n ih =>
    rw [Parse.chain]
    refine bind_eat m (fun st' took => ?_) fun _ => pure (stop a _)
    have shorter := took.2.1
    refine bind (step a st' (by omega)) fun b st'' shorter' => ?_
    refine (ih b (by omega) (by omega)).weaken fun _ r rest steps => ?_
    rw [took.1]
    exact steps r rest

theorem repeated {m : Mark} {next : α → Parse α} {T : α → List Symbol → List Symbol → Prop}
    (stop : ∀ a r, T a r r) {bound : Nat}
    (step : ∀ a st, st.rest.length < bound →
      Reading st (next a st) fun b r => ∀ u, T b r u → T a (.mark m :: st.symbols) u)
    (a : α) (within : st.rest.length ≤ bound) :
    Reading st (Parse.repeated m next a st) fun _ r => T a st.symbols r :=
  chain stop step _ a (Nat.le_refl _) within

end Reading
end Stencil
