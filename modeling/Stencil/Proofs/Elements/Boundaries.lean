import Stencil.Proofs.Elements.EndTags
/-!
# Where bodies are cut

The offsets of tags do not count a byte order mark at the start of a text, so behind one a body may
be cut inside a character, for which the program aborts. In a text without the mark each body begins
behind a tag and ends in front of one or inside it, and no character is cut.
-/
namespace Stencil

open Markup (Event Reader isSpace withoutMark)

namespace GroupFile

theorem map_ne_cutCharacter {α β : Type} {f : α → β} {answer : Except FileProblem α}
    (other : answer ≠ .error .cutCharacter) : answer.map f ≠ .error .cutCharacter := by
  cases answer with
  | error problem =>
    rintro ⟨⟩
    exact other rfl
  | ok a => nofun

section

/-! ## Steps -/

variable [Reader] {text attributes : List Char} {p : Progress} {e : Event} {es : List Event}

theorem ofAttributes_ne_cutCharacter : ofAttributes attributes ≠ .error .cutCharacter := by
  unfold ofAttributes
  split
  · nofun
  · dsimp only
    split
    · nofun
    · split <;> nofun

theorem templateHeader_ne_cutCharacter : templateHeader attributes ≠ .error .cutCharacter := by
  unfold templateHeader
  split <;> nofun

theorem aliasOfAttributes_ne_cutCharacter :
    aliasOfAttributes attributes ≠ .error .cutCharacter := by
  unfold aliasOfAttributes
  split
  · nofun
  · split <;> nofun

namespace Progress

theorem onOpened_ne_cutCharacter (p : Progress) (name attributes : List Char) (stop : Nat) :
    p.onOpened name attributes stop ≠ .error .cutCharacter := by
  unfold onOpened
  split
  · exact map_ne_cutCharacter ofAttributes_ne_cutCharacter
  · split
    · nofun
    · exact map_ne_cutCharacter templateHeader_ne_cutCharacter
  · split
    · nofun
    · exact map_ne_cutCharacter aliasOfAttributes_ne_cutCharacter
  · nofun

theorem onEmpty_ne_cutCharacter (p : Progress) (name attributes : List Char) :
    p.onEmpty name attributes ≠ .error .cutCharacter := by
  unfold onEmpty
  split
  · split
    · nofun
    · exact map_ne_cutCharacter templateHeader_ne_cutCharacter
  · split
    · nofun
    · exact map_ne_cutCharacter aliasOfAttributes_ne_cutCharacter
  · nofun

/-- Only the end tag of an open template cuts the text. -/
theorem exists_of_step_cutCharacter (failed : step text p e = .error .cutCharacter) :
    ∃ t stop, p.open? = some t ∧ e = .closed "template".toList stop ∧
      bodyText text t stop = .error .cutCharacter := by
  unfold step at failed
  split at failed
  case h_1 t opened =>
    refine ⟨t, ?_⟩
    unfold insideTemplate at failed
    split at failed
    · split at failed
      all_goals cases failed
    · rename_i name stop
      split at failed
      · rename_i named
        split at failed
        · have cut : bodyText text t stop = .error .cutCharacter := by
            by_contra other
            exact map_ne_cutCharacter other failed
          exact ⟨stop, opened, by rw [Variants.name_of_ofName? named]; rfl, cut⟩
        · cases failed
      · cases failed
    · cases failed
    · cases failed
  case h_2 =>
    exfalso
    split at failed
    · exact onOpened_ne_cutCharacter _ _ _ _ failed
    · exact onEmpty_ne_cutCharacter _ _ _ failed
    · cases failed
    · cases failed

/-- A run fails at one of its events, behind those that it has taken in. -/
theorem exists_of_foldlM_error {problem : FileProblem}
    (failed : es.foldlM (step text) p = .error problem) :
    ∃ before e later q, es = before ++ e :: later ∧ before.foldlM (step text) p = .ok q ∧
      step text q e = .error problem := by
  induction es generalizing p with
  | nil => cases failed
  | cons e es ih =>
    cases one : step text p e with
    | error problem' =>
      rw [foldlM_step_error one] at failed
      cases failed
      exact ⟨[], e, es, p, rfl, rfl, one⟩
    | ok p' =>
      rw [foldlM_step one] at failed
      obtain ⟨before, e', later, q, rfl, taken, last⟩ := ih failed
      refine ⟨e :: before, e', later, q, rfl, ?_, last⟩
      rw [foldlM_step one]
      exact taken

end Progress

/-! ## Texts without a mark -/

/-- No body of a text without a byte order mark begins or ends inside a character. -/
theorem parse_ne_cutCharacter (placed : Reader.PlacesTags) (unmarked : withoutMark text = text) :
    parse text ≠ .error .cutCharacter := by
  intro failed
  cases run : (Reader.events text).foldlM (Progress.step text) .start with
  | ok p =>
    rw [parse, run] at failed
    have finished : p.finish = .error .cutCharacter := failed
    unfold Progress.finish at finished
    split at finished
    all_goals cases finished
  | error problem =>
    rw [parse, run] at failed
    cases failed
    obtain ⟨es, e, es', p, events, reached, last⟩ := Progress.exists_of_foldlM_error run
    obtain ⟨t, stop, opened, rfl, cut⟩ := Progress.exists_of_step_cutCharacter last
    have isName : Markup.IsName "template".toList := by decide
    obtain ⟨before, blanks, rest, later, rfl, blank, rfl, ends, -, -⟩ := placed isName events
    have whole : withoutMark before = before := by
      have tag : ∀ c ∈ (Markup.endTagWith "template".toList blanks ++ rest).head?,
          c ≠ Markup.byteOrderMark := by
        rintro _ ⟨⟩
        decide
      rw [Markup.withoutMark_append before tag] at unmarked
      exact List.append_cancel_right unmarked
    have begun := Progress.Begun.foldlM (.of_none rfl) ends reached
    obtain ⟨-, opening, ⟨inside, parted⟩, start⟩ := begun t opened
    have read := closedBody_eq whole (whole.symm.trans parted.symm) start blank rest
    rw [closedBody, closedText, closedAt, cut] at read
    cases found : templateBody? (inside ++ ("</template".toList ++ blanks).take blanks.length) with
    | none =>
      rw [found] at read
      cases read
    | some body =>
      rw [found] at read
      cases read

end

/-- The offset behind the start tag lies three bytes early, inside the name. -/
example : parse ('\ufeff' :: "<group name='g'><template name='é'>x</template></group>".toList) =
    .error .cutCharacter := by
  cbv

end GroupFile
end Stencil
