import Stencil.Proofs.Drafting.Step
/-!
# What a render appends

A render appends to its sink what its draft comes to on the writer. It counts the characters of
that, indentation included and evaluated texts left out. On a sink that is too small it appends a
part from the beginning on and fails; nothing else that it does depends on the sink.
-/
namespace Stencil

/-- The writer with another limit for its sink. -/
def Writer.limited (w : Writer) (limit? : Option Nat) : Writer :=
  { w with sink := { w.sink with limit? } }

namespace Drafting

/-- The answer of a render that has appended a text. -/
def Ending.rendered (ending : Ending Unit) (appended : String) : Except Stop Rendered :=
  match ending with
  | .back _ _ ds => .ok ⟨appended.length, ds⟩
  | .stopped cause _ _ => .error cause

/-- What came of a render that was to append `piece`. -/
inductive Appended (w : Writer) (piece : String) (ending : Ending Unit) (outcome : RenderOutcome) :
    Prop
  | whole : w.sink.accepts piece = true → outcome.result = ending.rendered piece →
    outcome.writer.sink = w.sink.append piece → Appended w piece ending outcome
  | part {before rest : String} : w.sink.accepts piece = false → piece = before ++ rest →
    w.sink.accepts before = true → outcome.result = .error (.fatal .sinkFull) →
    outcome.writer.sink = w.sink.append before → Appended w piece ending outcome

/-- A run that leaves writers alone does not fail for a full sink. -/
theorem Silent.ne_sinkFull {allowed : String → Prop} {α : Type} {Q : α → Prop} {x : Run α}
    (silent : Silent allowed Q x) {s : RenderState} (opens : s.arena.Opens allowed)
    (t : RenderState) : x s ≠ .error (.fatal .sinkFull) t := by
  obtain ⟨ending, sound, runs⟩ := silent s.arena s.diagnostics opens
  have run : x s = ending.result s.writer := runs s.writer
  rw [run]
  cases sound with
  | back => simp [Ending.result]
  | stopped apart => simp [Ending.result, apart]

theorem Ending.Sound.rendered_ne_sinkFull {allowed : String → Prop} {Q : Unit → Prop}
    {ending : Ending Unit} (sound : ending.Sound allowed Q) (appended : String) :
    ending.rendered appended ≠ .error (.fatal .sinkFull) := by
  cases sound with
  | back => simp [Ending.rendered]
  | stopped apart => simpa [Ending.rendered] using apart

theorem drafts_everything (setting : Setting) (depth : Nat) :
    (Evaluator.ofDepth setting depth).Drafts fun _ => True :=
  drafts_ofDepth setting.registry.opens_everything depth

/-- The draft of a render is settled before it has a writer. -/
theorem render_wrote (setting : Setting) (depth : Nat) (a : Arena) (root : Handle) :
    ∃ (d : Draft) (ending : Ending Unit), ending.Sound (fun _ => True) Any ∧
      ∀ w, Wrote d ending w ((Evaluator.ofDepth setting depth).render root
        (a.get root).template.chunks ⟨a, [], w⟩) := by
  obtain ⟨d, ending, -, sound, wrote⟩ := (drafts_everything setting depth).render root
    (within_everything (Chunk.allIndents (a.get root).template.chunks)) a []
    a.opens_everything
  exact ⟨d, ending, sound, wrote⟩

/-- So is what it is to append. -/
theorem render_appends (setting : Setting) (depth : Nat) (a : Arena) (root : Handle) :
    ∃ (d : Draft) (ending : Ending Unit), ending.Sound (fun _ => True) Any ∧
      ∀ w, Appended w (d.on w) ending (setting.renderWithin depth a root w) := by
  obtain ⟨d, ending, sound, wrote⟩ := render_wrote setting depth a root
  refine ⟨d, ending, sound, fun w => ?_⟩
  have written := wrote w
  have sent := d.sends_writeOn w
  unfold Setting.renderWithin
  generalize (Evaluator.ofDepth setting depth).render root _ ⟨a, [], w⟩ = r at written ⊢
  cases written with
  | whole taken =>
    rw [taken] at sent
    cases sent with
    | whole fits =>
      cases ending with
      | back => exact .whole fits rfl rfl
      | stopped => exact .whole fits rfl rfl
  | part refused =>
    rw [refused] at sent
    cases sent with
    | part full split fits sink => exact .part full split fits rfl sink

end Drafting

/-- A render that comes to an end has counted the characters that it appended, and one that gives a
text has counted the characters of the text. -/
theorem render_counts_appended (setting : Setting) (a : Arena) (root : Handle) :
    (∀ depth w r, (setting.renderWithin depth a root w).result = .ok r →
      ∃ appended, (setting.renderWithin depth a root w).writer.text = w.text ++ appended ∧
        r.chars = appended.length) ∧
    ∀ r, (setting.renderToText a root).result = .ok r →
      r.chars = (setting.renderToText a root).writer.text.length := by
  have counted (depth : Nat) (w : Writer) (r : Rendered)
      (ended : (setting.renderWithin depth a root w).result = .ok r) :
      ∃ appended, (setting.renderWithin depth a root w).writer.text = w.text ++ appended ∧
        r.chars = appended.length := by
    obtain ⟨d, ending, -, appends⟩ := Drafting.render_appends setting depth a root
    cases appends w with
    | whole _ result sink =>
      refine ⟨d.on w, congrArg Sink.text sink, ?_⟩
      rw [ended] at result
      cases ending with
      | back => exact congrArg Rendered.chars (Except.ok.inj result)
      | stopped => cases result
    | part _ _ _ result =>
      rw [ended] at result
      cases result
  refine ⟨counted, fun r ended => ?_⟩
  obtain ⟨appended, text, chars⟩ := counted _ _ r ended
  have fromNothing : (Writer.fresh setting.strategy).text ++ appended = appended :=
    String.empty_append
  rw [Setting.renderToText, Setting.render, text, fromNothing, chars]

/-- An instance that writes another with an indentation of its own, and renders it once more to see
whether anything is there. -/
def Drafting.listed : Arena :=
  let item := Template.plain "item" [.literal "b", .newline "\n", .literal "é"]
  let list := Template.plain "list" [.literal "a:", .newline "\n",
    .expression (.attribute "x") .none (some "  "),
    .conditional (.rendered (.attribute "x")) (.plain "" [.literal "!"]) .none]
  ((Arena.empty.instantiate item).2.instantiate list).2.setAttribute ⟨1⟩ "x" (.template ⟨0⟩)

theorem listed_render_counts :
    let outcome := Setting.standard.renderWithin 5 Drafting.listed ⟨1⟩
      ((Writer.fresh .autoIndent).push ">")
    outcome.result = .ok ⟨14, []⟩ ∧ outcome.writer.text = ">a:\n>  b\n>  é!" ∧
      ∃ appended, outcome.writer.text = "" ++ appended ∧ 14 = appended.length := by
  intro outcome
  have ended : outcome.result = .ok ⟨14, []⟩ := by decide +kernel
  exact ⟨ended, by decide +kernel, (render_counts_appended .standard Drafting.listed ⟨1⟩).1 _ _ _ ended⟩

/-- A sink for `k` more bytes gets a render whole if it appends no more than that. Otherwise the
render fails, and the sink gets a part from the beginning on. Without a limit it never fails so, nor
does evaluation, nor making a text of a value. -/
theorem bounded_render_appends_prefix (setting : Setting) (depth : Nat) (a : Arena) (root : Handle)
    (w : Writer) (k : Nat) :
    let unbounded := setting.renderWithin depth a root (w.limited none)
    let bounded := setting.renderWithin depth a root (w.limited (w.text.utf8ByteSize + k))
    (∃ appended, unbounded.writer.text = w.text ++ appended ∧
      unbounded.result ≠ .error (.fatal .sinkFull) ∧
      (appended.utf8ByteSize ≤ k →
        bounded.result = unbounded.result ∧ bounded.writer.text = w.text ++ appended) ∧
      (k < appended.utf8ByteSize →
        bounded.result = .error (.fatal .sinkFull) ∧
        ∃ before rest, appended = before ++ rest ∧ before.utf8ByteSize ≤ k ∧
          bounded.writer.text = w.text ++ before)) ∧
    (∀ scope e s t, (Evaluator.ofDepth setting depth).eval scope e s ≠
      .error (.fatal .sinkFull) t) ∧
    ∀ scope v s t, (Evaluator.ofDepth setting depth).text setting scope v s ≠
      .error (.fatal .sinkFull) t := by
  intro unbounded bounded
  obtain ⟨d, ending, sound, appends⟩ := Drafting.render_appends setting depth a root
  have drafts := Drafting.drafts_everything setting depth
  -- What a draft comes to does not depend on the limit of the sink.
  have each (limit? : Option Nat) : Drafting.Appended (w.limited limit?) (d.on w) ending
      (setting.renderWithin depth a root (w.limited limit?)) := appends (w.limited limit?)
  have fits (piece : String) :
      (w.limited (w.text.utf8ByteSize + k)).sink.accepts piece = true ↔
        piece.utf8ByteSize ≤ k := by
    rw [Sink.accepts_iff rfl, ← String.utf8ByteSize_eq_zero_iff]
    change _ ∨ w.text.utf8ByteSize + _ ≤ _ ↔ _
    omega
  refine ⟨⟨d.on w, ?_⟩, ?_, ?_⟩
  · cases each none with
    | part full => exact absurd (full.symm.trans (Sink.accepts_of_limit?_eq_none rfl _)) (by simp)
    | whole _ result sink =>
      refine ⟨congrArg Sink.text sink, ?_, fun small => ?_, fun large => ?_⟩
      · exact result ▸ sound.rendered_ne_sinkFull _
      · cases each (w.text.utf8ByteSize + k) with
        | whole _ result' sink' => exact ⟨result'.trans result.symm, congrArg Sink.text sink'⟩
        | part full => exact absurd (full.symm.trans ((fits _).2 small)) (by simp)
      · cases each (w.text.utf8ByteSize + k) with
        | whole taken => exact absurd ((fits _).1 taken) (Nat.not_le.2 large)
        | @part before rest _ split taken result' sink' =>
          exact ⟨result', before, rest, split, (fits before).1 taken, congrArg Sink.text sink'⟩
  · intro scope e s t
    exact (drafts.eval scope (within_everything e.indents)).ne_sinkFull
      s.arena.opens_everything t
  · intro scope v s t
    exact (Drafting.silent_text drafts v).ne_sinkFull s.arena.opens_everything t

/-- The sink can be full in the middle of an indentation. -/
theorem listed_render_cut_off :
    let w := (Writer.fresh .autoIndent).push ">"
    let outcome := Setting.standard.renderWithin 5 Drafting.listed ⟨1⟩ (w.limited (some 5))
    outcome.writer.text = ">a:\n>" ∧ outcome.result = .error (.fatal .sinkFull) := by
  intro w outcome
  obtain ⟨⟨appended, text, -, -, large⟩, -⟩ :=
    bounded_render_appends_prefix .standard 5 Drafting.listed ⟨1⟩ w 5
  have whole : (Setting.standard.renderWithin 5 Drafting.listed ⟨1⟩ (w.limited none)).writer.text =
      ">a:\n>  b\n>  é!" := by decide +kernel
  have same : appended = ">a:\n>  b\n>  é!" := by
    rw [← whole, text]
    exact String.empty_append.symm
  have cut := large (by rw [same]; decide +kernel)
  exact ⟨by decide +kernel, cut.1⟩

end Stencil
