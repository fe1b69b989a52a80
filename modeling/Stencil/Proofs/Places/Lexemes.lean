import Stencil.Proofs.Grammar.Soundness
import Stencil.Proofs.Places.Matching
import Stencil.Proofs.Places.Positions
/-!
# Positions in an expression

Every lexeme stands at the place of its first character, and a source that does not scan is reported
at the first character that no lexeme begins with. At another place the same is found, all positions
shifted.
-/
namespace Stencil

open Text (Position)

/-! ## Lexemes -/

namespace Lexeme

variable {front s : List Char} {items : List Lexeme}

/-- The lexemes of the text behind `front`, each at the place of its first character. -/
inductive Placed : List Char → List Char → List Lexeme → Prop
  | nil (front : List Char) : Placed front [] []
  | blank {front : List Char} {c : Char} {s : List Char} {items : List Lexeme} :
    Text.isBlank c = true → Placed (front ++ [c]) s items → Placed front (c :: s) items
  | symbol {front : List Char} {c : Char} {s : List Char} {r : Reading} {items : List Lexeme} :
    Text.isBlank c = false → read c s = .ok r → Placed (front ++ r.written) r.rest items →
    Placed front (c :: s) (⟨r.symbol, Position.start.after front⟩ :: items)

theorem placed_of_scan {lexemes : Lexemes} (scanned : scan (.after .start front) s = .ok lexemes) :
    Placed front s lexemes.items ∧ lexemes.stop = .after .start (front ++ s) := by
  generalize place : Position.start.after front = pos at scanned
  fun_induction scan pos s generalizing front lexemes with
  | case1 =>
    cases scanned
    exact ⟨.nil front, by rw [List.append_nil, place]⟩
  | case2 pos c s blank ih =>
    have onward : Position.start.after (front ++ [c]) = pos.step c := by
      rw [Position.after_append, place]
      rfl
    obtain ⟨placed, stop⟩ := ih onward scanned
    exact ⟨.blank blank placed, by rw [stop, List.append_assoc]; rfl⟩
  | case3 => cases scanned
  | case4 pos c s visible r done _ ih =>
    subst place
    rcases others : scan ((Position.start.after front).after r.written) r.rest with e | more
    · rw [others] at scanned
      cases scanned
    · rw [others] at scanned
      cases scanned
      obtain ⟨placed, stop⟩ := ih (Position.after_append _ _ _) others
      refine ⟨.symbol (eq_false_of_ne_true visible) done placed, ?_⟩
      rw [stop, List.append_assoc, (eq_of_read done).1]

/-- A source does not scan because of what stands at one place. -/
theorem exists_of_scan_error {e : TemplateError}
    (failed : scan (.after .start front) s = .error e) :
    ∃ before c rest problem, s = before ++ c :: rest ∧ Text.isBlank c = false ∧
      read c rest = .error problem ∧ e = .malformed (.after .start (front ++ before)) problem := by
  generalize place : Position.start.after front = pos at failed
  fun_induction scan pos s generalizing front with
  | case1 => cases failed
  | case2 pos c s blank ih =>
    have onward : Position.start.after (front ++ [c]) = pos.step c := by
      rw [Position.after_append, place]
      rfl
    obtain ⟨before, c', rest, problem, rfl, visible, unread, rfl⟩ := ih onward failed
    exact ⟨c :: before, c', rest, problem, rfl, visible, unread, by rw [List.append_assoc]; rfl⟩
  | case3 pos c s visible problem unread =>
    cases failed
    refine ⟨[], c, s, problem, rfl, eq_false_of_ne_true visible, unread, ?_⟩
    rw [List.append_nil, place]
  | case4 pos c s visible r done _ ih =>
    subst place
    rcases others : scan ((Position.start.after front).after r.written) r.rest with e' | more
    · rw [others] at failed
      cases failed
      obtain ⟨before, c', rest, problem, whole, visible', unread, rfl⟩ :=
        ih (Position.after_append _ _ _) others
      refine ⟨r.written ++ before, c', rest, problem, ?_, visible', unread, ?_⟩
      · rw [(eq_of_read done).1, whole, List.append_assoc]
      · rw [List.append_assoc]
    · rw [others] at failed
      cases failed

/-- Every lexeme begins with a character of the text. -/
theorem Placed.exists_read (placed : Placed front s items) {l : Lexeme} (member : l ∈ items) :
    ∃ before c rest r, s = before ++ c :: rest ∧ read c rest = .ok r ∧ l.symbol = r.symbol ∧
      l.pos = .after .start (front ++ before) := by
  induction placed with
  | nil => cases member
  | @blank front c s items _ _ ih =>
    obtain ⟨before, c', rest, r, rfl, done, symbol, place⟩ := ih member
    exact ⟨c :: before, c', rest, r, rfl, done, symbol, by rw [place, List.append_assoc]; rfl⟩
  | @symbol front c s r items visible done _ ih =>
    rcases List.mem_cons.1 member with rfl | later
    · exact ⟨[], c, s, r, rfl, done, rfl, by rw [List.append_nil]⟩
    · obtain ⟨before, c', rest, r', whole, done', symbol, place⟩ := ih later
      refine ⟨r.written ++ before, c', rest, r', ?_, done', symbol, ?_⟩
      · rw [(eq_of_read done).1, whole, List.append_assoc]
      · rw [place, List.append_assoc]

/-! ### Shifted lexemes -/

/-- The lexeme in the text that its source is an excerpt of. -/
def shift (base : Position) (l : Lexeme) : Lexeme := ⟨l.symbol, base.shift l.pos⟩

end Lexeme

def Lexemes.shift (base : Position) (lexemes : Lexemes) : Lexemes :=
  ⟨lexemes.items.map (Lexeme.shift base), base.shift lexemes.stop⟩

namespace Lexeme

variable {base pos : Position}

theorem scan_shift (base : Position) (counts : pos.Counts) (s : List Char) :
    scan (base.shift pos) s =
      match scan pos s with
      | .ok lexemes => .ok (lexemes.shift base)
      | .error e => .error (Grammar.shiftError base e) := by
  fun_induction scan pos s with
  | case1 pos => rw [scan]; rfl
  | case2 pos c s blank ih =>
    rw [scan_of_blank blank, ← ih (counts.step c), Position.shift_step counts]
  | case3 pos c s visible problem failed =>
    rw [scan_of_error (eq_false_of_ne_true visible) failed]
    rfl
  | case4 pos c s visible r done _ ih =>
    rw [scan_of_read (eq_false_of_ne_true visible) done, ← Position.shift_after counts,
      ih (counts.after _)]
    cases scan (pos.after r.written) r.rest <;> rfl

theorem counts_of_scan (counts : pos.Counts) {s : List Char} {lexemes : Lexemes}
    (scanned : scan pos s = .ok lexemes) :
    (∀ l ∈ lexemes.items, l.pos.Counts) ∧ lexemes.stop.Counts := by
  fun_induction scan pos s generalizing lexemes with
  | case1 =>
    cases scanned
    exact ⟨List.forall_mem_nil _, counts⟩
  | case2 pos c s blank ih => exact ih (counts.step c) scanned
  | case3 => cases scanned
  | case4 pos c s visible r done _ ih =>
    rcases others : scan (pos.after r.written) r.rest with e | more
    · rw [others] at scanned
      cases scanned
    · rw [others] at scanned
      cases scanned
      obtain ⟨items, stop⟩ := ih (counts.after _) others
      exact ⟨List.forall_mem_cons.2 ⟨counts, items⟩, stop⟩

end Lexeme
end Stencil
