import Stencil.Proofs.Scanning.Lines
/-!
# Inline templates are shorter

The body of an inline template stands in the source with more around it. So the bound under which
bodies are compiled never applies, and a source compiles as its tokens do by themselves.
-/
namespace Stencil

open Text (Position)

namespace Text

theorem length_trimStart_le (s : List Char) : (trimStart s).length ≤ s.length :=
  (List.dropWhile_sublist _).length_le

theorem length_trim_le (s : List Char) : (trim s).length ≤ s.length := by
  have ending := (List.dropWhile_sublist (p := isBlank) (l := (trimStart s).reverse)).length_le
  rw [List.length_reverse] at ending
  rw [trim, trimEnd, List.length_reverse]
  exact ending.trans (length_trimStart_le s)

end Text

namespace Token

variable {d : Delimiters} {pos : Position} {c : Char} {s source body : List Char} {r : Step}
  {tokens : List Token}

/-- The source of the expression or the condition in a token. -/
def expression : Token → List Char
  | .expr source _ _ => source
  | .ifMark condition _ _ => condition
  | .elseifMark condition _ _ => condition
  | _ => []

theorem length_of_conditionOf? {word condition : List Char} {offset : Nat}
    (found : conditionOf? word source = some (condition, offset)) :
    condition.length ≤ source.length := by
  obtain ⟨lead, rfl, -⟩ := exists_of_conditionOf? found
  simp only [List.length_append]
  omega

theorem length_of_marker? {marker : Token} (found : marker? source pos = some marker) :
    marker.expression.length ≤ source.length := by
  have content := Text.length_trim_le source
  cases marked_of_marker? found with
  | elseMark => exact Nat.zero_le _
  | endifMark => exact Nat.zero_le _
  | elseifMark read => exact (length_of_conditionOf? read).trans content
  | ifMark read => exact (length_of_conditionOf? read).trans content

/-- What holds of the payload of a chunk holds of the source in each of its tokens, if markers hand
it on. -/
theorem forall_mem_chunk {p : List Char → Prop} {indent? : Option (List Char)} (empty : p [])
    (marked : ∀ {source pos marker}, p source → marker? source pos = some marker →
      p marker.expression)
    (inside : ∀ source rest, payload d.stop (.code 0) body = .ok (source, rest) → p source)
    (read : chunk d pos indent? body = .ok r) : ∀ token ∈ r.tokens, p token.expression := by
  have indentTexts : ∀ token ∈ indentText indent?, p token.expression := by
    cases indent? with
    | none => nofun
    | some indent => exact List.forall_mem_singleton.2 empty
  have behind {last : Token} (holds : p last.expression) :
      ∀ token ∈ indentText indent? ++ [last], p token.expression :=
    List.forall_mem_append.2 ⟨indentTexts, List.forall_mem_singleton.2 holds⟩
  cases chunk_ok_iff.1 read with
  | line split found => exact List.forall_mem_singleton.2 (marked (inside _ _ split) found)
  | last split found => exact List.forall_mem_singleton.2 (marked (inside _ _ split) found)
  | marker split found => exact behind (marked (inside _ _ split) found)
  | escape => exact behind empty
  | expression split => exact List.forall_mem_singleton.2 (inside _ _ split)

/-- The payload of a step is one of a part of what the step reads. -/
theorem forall_mem_step {p : List Char → Prop} (empty : p [])
    (marked : ∀ {source pos marker}, p source → marker? source pos = some marker →
      p marker.expression)
    (inside : ∀ body source rest, body.length ≤ s.length →
      payload d.stop (.code 0) body = .ok (source, rest) → p source)
    (read : step d pos c s = .ok r) : ∀ token ∈ r.tokens, p token.expression := by
  cases step_ok_iff.1 read with
  | newline => exact List.forall_mem_singleton.2 empty
  | indented _ _ found _ read =>
    have whole := congrArg List.length (eq_of_indentation? found)
    rw [List.length_append, List.length_cons, List.length_cons] at whole
    exact forall_mem_chunk empty marked (fun source rest => inside _ source rest (by omega)) read
  | escape => exact List.forall_mem_singleton.2 empty
  | text => exact List.forall_mem_singleton.2 empty
  | comment => nofun
  | chunk _ _ _ _ read =>
    exact forall_mem_chunk empty marked
      (fun source rest => inside s source rest (Nat.le_refl _)) read

theorem length_of_mem_step (read : step d pos c s = .ok r) :
    ∀ token ∈ r.tokens, token.expression.length ≤ (c :: s).length := by
  refine forall_mem_step (p := fun source => source.length ≤ (c :: s).length) (Nat.zero_le _)
    (fun short found => (length_of_marker? found).trans short) ?_ read
  intro body source rest shorter split
  have whole := congrArg List.length (eq_of_payload split)
  rw [List.length_append, List.length_cons] at whole
  rw [List.length_cons]
  omega

theorem length_of_mem_pieces (read : pieces d pos s = .ok tokens) :
    ∀ token ∈ tokens, token.expression.length ≤ s.length := by
  induction pieced_of_pieces read with
  | nil => exact List.forall_mem_nil _
  | cons taken others _ ih =>
    have shorter := length_of_step taken
    refine List.forall_mem_append.2 ⟨length_of_mem_step taken, fun token member => ?_⟩
    exact (ih others token member).trans (shorter.trans (Nat.le_succ _))

theorem length_of_mem_ofSource (read : ofSource d s = .ok tokens) :
    ∀ token ∈ tokens, token.expression.length ≤ s.length := by
  obtain ⟨pieced, raw, rfl⟩ := ofSource_eq_ok_iff.1 read
  exact forall_joinTexts (fun _ => Nat.zero_le _) (length_of_mem_pieces raw)

end Token

namespace Lexeme

variable {pos : Position} {c : Char} {s : List Char}

theorem written_of_read_inline {r : Reading} {raw : List Char} (done : read c s = .ok r)
    (isInline : r.symbol = .inline raw) : r.written = '{' :: raw ++ ['}'] := by
  unfold read at done
  split at done
  · cases done
    cases isInline
  · split at done
    · split at done
      · cases done
        cases isInline
      · cases done
    · split at done
      · split at done
        · cases done
          cases isInline
          rfl
        · cases done
      · split at done
        · dsimp only at done
          split at done
          · cases done
            cases isInline
          · cases done
        · split at done
          · cases done
            cases isInline
          · cases done

/-- An inline template stands in braces in the source. -/
theorem length_of_mem_scan {lexemes : Lexemes} (scanned : scan pos s = .ok lexemes) {raw : List Char}
    (member : .inline raw ∈ lexemes.items.map symbol) : raw.length < s.length := by
  fun_induction scan pos s generalizing lexemes with
  | case1 =>
    cases scanned
    cases member
  | case2 pos c s blank ih => exact (ih scanned member).trans (Nat.lt_succ_self _)
  | case3 => cases scanned
  | case4 pos c s visible r done shorter ih =>
    have whole := congrArg List.length (eq_of_read done).1
    rw [List.length_append] at whole
    rcases others : scan (pos.after r.written) r.rest with e | more
    · rw [others] at scanned
      cases scanned
    · rw [others] at scanned
      cases scanned
      rcases List.mem_cons.1 member with here | later
      · have braces := congrArg List.length (written_of_read_inline done here.symm)
        rw [List.length_append, List.length_cons] at braces
        omega
      · have := ih others later
        omega

end Lexeme

namespace Grammar

theorem length_inlineBody_le (raw : List Char) : (inlineBody raw).length ≤ raw.length := by
  have inner : (splitFormals raw).2.1.length ≤ raw.length := by
    unfold splitFormals
    split
    · exact Nat.le_refl _
    · rename_i header behind split
      have whole := congrArg List.length (Text.eq_of_splitAtWord? split)
      have trimmed := Text.length_trimStart_le behind
      dsimp only
      split
      · simp only [List.length_append] at whole
        dsimp only
        omega
      · exact Nat.le_refl _
  have once := Text.length_dropBefore_le '\\' '{' (splitFormals raw).2.1
  have twice := Text.length_dropBefore_le '\\' '}' (Text.dropBefore '\\' '{' (splitFormals raw).2.1)
  exact (twice.trans once).trans inner

end Grammar

theorem Token.inlinesFit_of_length {n : Nat} {token : Token}
    (short : token.expression.length ≤ n) :
    token.InlinesFit fun raw => (Grammar.inlineBody raw).length < n := by
  have fitting (source : List Char) (short : source.length ≤ n) :
      Lexeme.InlinesFit (fun raw => (Grammar.inlineBody raw).length < n) source :=
    fun pos lexemes scanned raw member =>
      (Grammar.length_inlineBody_le raw).trans_lt
        ((Lexeme.length_of_mem_scan scanned member).trans_le short)
  cases token with
  | expr source indent? pos => exact fitting source short
  | ifMark condition offset pos => exact fitting condition short
  | elseifMark condition offset pos => exact fitting condition short
  | _ => trivial

/-- All inline templates of a source are compiled. -/
theorem compileChunks_eq {d : Delimiters} {source : List Char} {tokens : List Token}
    (split : Token.ofSource d source = .ok tokens) (name : String) :
    (compileChunks d name source).1 = (Assembly.ofTokens ⟨name, compileChunks d⟩ tokens).1 ∧
      ((compileChunks d name source).2 = [] ↔
        (Assembly.ofTokens ⟨name, compileChunks d⟩ tokens).2 = []) := by
  have contexts : ParseContext.Parallel id
      (fun raw => (Grammar.inlineBody raw).length < source.length)
      ⟨name, fun name body =>
        if body.length < source.length then compileChunks d name body else ([], [])⟩
      ⟨name, compileChunks d⟩ := by
    refine ⟨fun _ => rfl, fun number raw fits => ?_, fun number raw fits => ?_⟩ <;>
      simp only [if_pos fits]
  rw [compileChunks_of_ok split]
  have parallel := Assembly.parallel_ofTokens contexts rfl rfl fun token member =>
    Token.inlinesFit_of_length (Token.length_of_mem_ofSource split token member)
  simpa only [← Chunk.renameAll_eq, Chunk.renameAll_id] using parallel

end Stencil
