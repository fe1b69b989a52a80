import Mathlib.Data.List.Forall2
import Mathlib.Tactic.IntervalCases
import Stencil.Proofs.Scanning.Steps
/-!
# Escape chunks

A chunk of escapes stands for the characters that they denote. Behind `\u` stand the digits of a code
point: four of them as a rule, but the reader takes whatever number it finds in the next four
characters, or in fewer where the payload ends, with or without a plus sign.
-/
namespace Stencil

open Text (Position)

namespace Token

variable {c : Char} {n m v : Nat} {s t p word rest digits : List Char} {values : List Nat}

/-! ## Numbers -/

/-- The character is the hexadecimal digit, small or capital, that stands for `n`. -/
def IsHexDigit (c : Char) (n : Nat) : Prop :=
  n < 16 ∧ (c = n.digitChar ∨ c = n.digitChar.toUpper)

instance (c : Char) (n : Nat) : Decidable (IsHexDigit c n) := inferInstanceAs (Decidable (_ ∧ _))

theorem hexDigit?_eq_some_iff : hexDigit? c = some n ↔ IsHexDigit c n := by
  constructor
  · intro read
    have ascii : c.toNat < 103 := by
      unfold hexDigit? at read
      split at read
      · rename_i digit
        simp [Char.isDigit, UInt32.le_iff_toNat_le] at digit
        change 48 ≤ c.toNat ∧ c.toNat ≤ 57 at digit
        omega
      · split at read
        · rename_i small
          exact Nat.lt_succ_of_le (show c.toNat ≤ 'f'.toNat from small.2)
        · split at read
          · rename_i capital
            have := show c.toNat ≤ 'F'.toNat from capital.2
            exact this.trans_lt (by decide)
          · cases read
    have each : ∀ k < 103, ∀ n ∈ hexDigit? (.ofNat k), IsHexDigit (.ofNat k) n := by decide
    rw [← Char.ofNat_toNat c] at read ⊢
    exact each c.toNat ascii n read
  · rintro ⟨small, same⟩
    interval_cases n <;> rcases same with rfl | rfl <;> decide

/-- The characters are hexadecimal digits of the number, the highest first. -/
def IsHex (digits : List Char) (v : Nat) : Prop :=
  ∃ values, List.Forall₂ IsHexDigit digits values ∧ values.foldl (16 * · + ·) 0 = v

theorem foldlM_hexDigit?_eq_some_iff :
    digits.foldlM (fun n c => (hexDigit? c).map (16 * n + ·)) m = some v ↔
      ∃ values, List.Forall₂ IsHexDigit digits values ∧ values.foldl (16 * · + ·) m = v := by
  induction digits generalizing m with
  | nil => simp
  | cons c digits ih =>
    simp only [List.foldlM_cons, Option.bind_eq_bind, Option.bind_eq_some_iff, Option.map_eq_some_iff,
      hexDigit?_eq_some_iff, List.forall₂_cons_left_iff]
    constructor
    · rintro ⟨_, ⟨n, digit, rfl⟩, others⟩
      obtain ⟨values, read, same⟩ := ih.1 others
      exact ⟨n :: values, ⟨n, values, digit, read, rfl⟩, same⟩
    · rintro ⟨_, ⟨n, values, digit, read, rfl⟩, same⟩
      exact ⟨_, ⟨n, digit, rfl⟩, ih.2 ⟨values, read, same⟩⟩

theorem hexValue?_eq_some_iff :
    hexValue? s = some v ↔ ∃ digits, digits ≠ [] ∧ (s = digits ∨ s = '+' :: digits) ∧ IsHex digits v := by
  have signless (values : List Nat) (rest : List Char) :
      ¬ List.Forall₂ IsHexDigit ('+' :: rest) values := by
    intro read
    obtain ⟨n, -, plus, -⟩ := List.forall₂_cons_left_iff.1 read
    exact absurd (hexDigit?_eq_some_iff.2 plus) (by simp [hexDigit?])
  unfold hexValue?
  dsimp only
  constructor
  · intro read
    by_cases plus : s.head? = some '+'
    · obtain ⟨rest, rfl⟩ := List.head?_eq_some_iff.1 plus
      rw [if_pos plus, List.drop_one, List.tail_cons] at read
      split at read
      · cases read
      · exact ⟨rest, ‹_›, .inr rfl, foldlM_hexDigit?_eq_some_iff.1 read⟩
    · rw [if_neg plus] at read
      split at read
      · cases read
      · exact ⟨s, ‹_›, .inl rfl, foldlM_hexDigit?_eq_some_iff.1 read⟩
  · rintro ⟨digits, nonempty, rfl | rfl, values, read, same⟩
    · have other : s.head? ≠ some '+' := by
        intro plus
        obtain ⟨rest, rfl⟩ := List.head?_eq_some_iff.1 plus
        exact signless values rest read
      rw [if_neg other, if_neg nonempty]
      exact foldlM_hexDigit?_eq_some_iff.2 ⟨values, read, same⟩
    · rw [List.head?_cons, if_pos rfl, List.drop_one, List.tail_cons, if_neg nonempty]
      exact foldlM_hexDigit?_eq_some_iff.2 ⟨values, read, same⟩

theorem charOf?_eq_some_iff : charOf? n = some c ↔ c.toNat = n := by
  unfold charOf?
  constructor
  · intro read
    split at read
    · rename_i valid
      cases read
      rw [Char.ofNat, dif_pos valid]
      rfl
    · cases read
  · rintro rfl
    rw [if_pos (show c.toNat.isValidChar from c.valid), Char.ofNat_toNat]

/-! ## Sequences of escapes -/

/-- The escapes of one character and what they stand for. -/
def shortEscapes : List (Char × Char) := [('n', '\n'), ('r', '\r'), ('t', '\t'), (' ', ' ')]

/-- A sequence of escapes and the characters that it denotes, in order. `Code word rest c` says that
behind `\u` and in front of `rest` the characters `word` stand for `c`. -/
inductive Denotes (Code : List Char → List Char → Char → Prop) : List Char → List Char → Prop
  | nil : Denotes Code [] []
  | short {e c : Char} {s t : List Char} :
    (e, c) ∈ shortEscapes → Denotes Code s t → Denotes Code ('\\' :: e :: s) (c :: t)
  | code {word s t : List Char} {c : Char} :
    Code word s c → Denotes Code s t → Denotes Code ('\\' :: 'u' :: (word ++ s)) (c :: t)

/-- Four hexadecimal digits that name the character -/
def FourDigits (word _rest : List Char) (c : Char) : Prop := word.length = 4 ∧ IsHex word c.toNat

/-- A number that names the character, in four characters or in fewer at the end; a plus sign may
stand before the digits. -/
def Numbered (word rest : List Char) (c : Char) : Prop :=
  (word.length = 4 ∨ word.length < 4 ∧ rest = []) ∧
    ∃ digits, digits ≠ [] ∧ (word = digits ∨ word = '+' :: digits) ∧ IsHex digits c.toNat

theorem FourDigits.numbered (four : FourDigits word rest c) : Numbered word rest c :=
  ⟨.inl four.1, word, List.ne_nil_of_length_pos (four.1 ▸ by decide), .inl rfl, four.2⟩

/-- What the reader takes behind `\u` -/
theorem numbered_iff :
    Numbered word rest c ↔
      word = (word ++ rest).take 4 ∧ (hexValue? word).bind charOf? = some c := by
  have named : (hexValue? word).bind charOf? = some c ↔
      ∃ digits, digits ≠ [] ∧ (word = digits ∨ word = '+' :: digits) ∧ IsHex digits c.toNat := by
    rw [Option.bind_eq_some_iff]
    constructor
    · rintro ⟨v, read, valid⟩
      exact charOf?_eq_some_iff.1 valid ▸ hexValue?_eq_some_iff.1 read
    · intro read
      exact ⟨c.toNat, hexValue?_eq_some_iff.2 read, charOf?_eq_some_iff.2 rfl⟩
  have taken : (word.length = 4 ∨ word.length < 4 ∧ rest = []) ↔ word = (word ++ rest).take 4 := by
    rw [List.take_append]
    constructor
    · rintro (four | ⟨short, rfl⟩)
      · rw [four, List.take_of_length_le four.le]
        simp
      · simp [List.take_of_length_le short.le]
    · intro same
      have := congrArg List.length same
      simp only [List.length_append, List.length_take] at this
      rcases rest with _ | ⟨e, rest⟩
      · simp at this ⊢
        omega
      · simp at this ⊢
        omega
  rw [Numbered, named, taken]

theorem denotes_of_escapes? (read : escapes? s = some t) : Denotes Numbered s t := by
  fun_induction escapes? s generalizing t with
  | case1 =>
    cases read
    exact .nil
  | case2 rest ih =>
    obtain ⟨u, inner, rfl⟩ := Option.map_eq_some_iff.1 read
    exact .short (by decide) (ih inner)
  | case3 rest ih =>
    obtain ⟨u, inner, rfl⟩ := Option.map_eq_some_iff.1 read
    exact .short (by decide) (ih inner)
  | case4 rest ih =>
    obtain ⟨u, inner, rfl⟩ := Option.map_eq_some_iff.1 read
    exact .short (by decide) (ih inner)
  | case5 rest ih =>
    obtain ⟨u, inner, rfl⟩ := Option.map_eq_some_iff.1 read
    exact .short (by decide) (ih inner)
  | case6 rest c named ih =>
    obtain ⟨u, inner, rfl⟩ := Option.map_eq_some_iff.1 read
    have code : Numbered (rest.take 4) (rest.drop 4) c :=
      numbered_iff.2 ⟨by rw [List.take_append_drop], named⟩
    rw [← List.take_append_drop 4 rest]
    exact .code code (ih inner)
  | case7 => cases read
  | case8 => cases read

theorem escapes?_of_denotes (denoted : Denotes Numbered s t) : escapes? s = some t := by
  induction denoted with
  | nil => rw [escapes?]
  | @short e c s t known _ ih =>
    simp only [shortEscapes, List.mem_cons, Prod.mk.injEq, List.not_mem_nil, or_false] at known
    rcases known with ⟨rfl, rfl⟩ | ⟨rfl, rfl⟩ | ⟨rfl, rfl⟩ | ⟨rfl, rfl⟩ <;>
      rw [escapes?, ih] <;> rfl
  | @code word s t c code _ ih =>
    obtain ⟨taken, named⟩ := numbered_iff.1 code
    have dropped : (word ++ s).drop 4 = s := by
      have parts := List.take_append_drop 4 (word ++ s)
      rw [← taken] at parts
      exact List.append_cancel_left parts
    rw [escapes?, ← taken, dropped, named, ih]
    rfl

theorem escapes?_eq_some_iff : escapes? s = some t ↔ Denotes Numbered s t :=
  ⟨denotes_of_escapes?, escapes?_of_denotes⟩

/-- The payload is a sequence of escapes, at least one, and denotes the text. -/
def IsEscaped (p t : List Char) : Prop := p ≠ [] ∧ Denotes Numbered p t

theorem escapedText?_eq_some_iff : escapedText? p = some t ↔ IsEscaped p t := by
  unfold escapedText? IsEscaped
  split
  · simp_all
  · rw [escapes?_eq_some_iff]
    simp_all

theorem Denotes.mono {Code Code' : List Char → List Char → Char → Prop}
    (weaker : ∀ word rest c, Code word rest c → Code' word rest c) (denoted : Denotes Code s t) :
    Denotes Code' s t := by
  induction denoted with
  | nil => exact .nil
  | short known _ ih => exact .short known ih
  | code code _ ih => exact .code (weaker _ _ _ code) ih

/-- A plus sign before the digits and a payload that ends early are all that a code of four digits does
not have. -/
theorem Denotes.fourDigits (denoted : Denotes Numbered s t) :
    Denotes FourDigits s t ∨ '+' ∈ s ∨
      ∃ front word, s = front ++ '\\' :: 'u' :: word ∧ word.length < 4 := by
  induction denoted with
  | nil => exact .inl .nil
  | @short e c s t known _ ih =>
    rcases ih with four | plus | ⟨front, word, rfl, short⟩
    · exact .inl (.short known four)
    · exact .inr (.inl (List.mem_cons_of_mem _ (List.mem_cons_of_mem _ plus)))
    · exact .inr (.inr ⟨'\\' :: e :: front, word, rfl, short⟩)
  | @code word s t c code _ ih =>
    obtain ⟨extent, digits, -, rfl | rfl, hex⟩ := code
    · rcases extent with four | ⟨short, rfl⟩
      · rcases ih with others | plus | ⟨front, last, rfl, short⟩
        · exact .inl (.code ⟨four, hex⟩ others)
        · exact .inr (.inl (by simp [plus]))
        · exact .inr (.inr ⟨'\\' :: 'u' :: (word ++ front), last, by simp, short⟩)
      · exact .inr (.inr ⟨[], word, by simp, short⟩)
    · exact .inr (.inl (by simp))

/-- The text of an escape chunk. A blank at the end may belong to the last escape. -/
def IsEscapeChunk (source t : List Char) : Prop :=
  IsEscaped (Text.trimStart source) t ∨
    (∀ u, ¬ IsEscaped (Text.trimStart source) u) ∧ IsEscaped (Text.trim source) t

theorem escapeChunk?_eq_some_iff {source : List Char} :
    escapeChunk? source = some t ↔ IsEscapeChunk source t := by
  simp only [escapeChunk?, IsEscapeChunk, Option.or_eq_some_iff, escapedText?_eq_some_iff,
    Option.eq_none_iff_forall_ne_some, ne_eq]

/-- Escapes are read by their grammar, and a chunk that is no marker is literal text exactly where its
payload, without the blanks around it, is a sequence of escapes. A code of four hexadecimal digits is
read as the character that it names; beyond those, only codes with a plus sign and codes that the
payload cuts short are read. -/
theorem escapes_follow_grammar {d : Delimiters} {opening : Position} {indent? : Option (List Char)}
    {body source rest : List Char} (split : payload d.stop (.code 0) body = .ok (source, rest))
    (noMarker : marker? source (opening.step d.start) = none) :
    (∀ p t, escapedText? p = some t ↔ IsEscaped p t) ∧
    (∀ p t, p ≠ [] → Denotes FourDigits p t → escapedText? p = some t) ∧
    (∀ p t, escapedText? p = some t → Denotes FourDigits p t ∨ '+' ∈ p ∨
      ∃ front word, p = front ++ '\\' :: 'u' :: word ∧ word.length < 4) ∧
    (∀ t, IsEscapeChunk source t → chunk d opening indent? body =
      .ok ⟨indentText indent? ++ [.text t], (opening.step d.start).after (source ++ [d.stop]), rest⟩) ∧
    ((∀ t, ¬ IsEscapeChunk source t) → chunk d opening indent? body =
      .ok ⟨[.expr source indent? (opening.step d.start)],
        (opening.step d.start).after (source ++ [d.stop]), rest⟩) := by
  refine ⟨fun p t => escapedText?_eq_some_iff, fun p t nonempty four => ?_, fun p t read => ?_,
    fun t escaped => ?_, fun none => ?_⟩
  · exact escapedText?_eq_some_iff.2 ⟨nonempty, four.mono fun _ _ _ => FourDigits.numbered⟩
  · exact (escapedText?_eq_some_iff.1 read).2.fourDigits
  · exact chunk_ok_iff.2 (.escape split noMarker (escapeChunk?_eq_some_iff.2 escaped))
  · refine chunk_ok_iff.2 (.expression split noMarker ?_)
    exact Option.eq_none_iff_forall_ne_some.2 fun t read => none t (escapeChunk?_eq_some_iff.1 read)

/-- Blanks in front, and an escaped one at the end. -/
theorem tab_letter_space_read :
    let source := " \\t\\u0041\\ ".toList
    payload '$' (.code 0) (source ++ ['$', 'x']) = .ok (source, ['x']) ∧
      marker? source ⟨1, 2⟩ = none ∧ IsEscapeChunk source ['\t', 'A', ' '] ∧
      chunk .dollar .start none (source ++ ['$', 'x']) =
        .ok ⟨[.text ['\t', 'A', ' ']], ⟨1, 14⟩, ['x']⟩ := by
  intro source
  have split : payload '$' (.code 0) (source ++ ['$', 'x']) = .ok (source, ['x']) := by
    decide +kernel
  have noMarker : marker? source ⟨1, 2⟩ = none := by decide +kernel
  have escaped : IsEscapeChunk source ['\t', 'A', ' '] :=
    escapeChunk?_eq_some_iff.1 (by decide +kernel)
  obtain ⟨-, -, -, literal, -⟩ :=
    @escapes_follow_grammar .dollar .start none _ _ _ split noMarker
  exact ⟨split, noMarker, escaped, literal _ escaped⟩

/-- Two digits and the end of the payload, or a plus sign before three digits, are read for a code of
four digits. -/
theorem short_and_signed_codes_read :
    (ofSource .dollar "$\\u41$".toList = .ok [.text ['A']] ∧
      ∀ t, ¬ Denotes FourDigits "\\u41".toList t) ∧
    ofSource .dollar "$\\u+041$".toList = .ok [.text ['A']] ∧
      ∀ t, ¬ Denotes FourDigits "\\u+041".toList t := by
  have code {p t : List Char} (denoted : Denotes FourDigits ('\\' :: 'u' :: p) t) :
      ∃ word s c, p = word ++ s ∧ FourDigits word s c := by
    generalize whole : '\\' :: 'u' :: p = p' at denoted
    cases denoted with
    | nil => cases whole
    | @short e c s t known =>
      cases whole
      exact absurd known (by simp [shortEscapes])
    | @code word s t c four =>
      cases whole
      exact ⟨word, s, c, rfl, four⟩
  refine ⟨⟨by decide +kernel, fun t denoted => ?_⟩, by decide +kernel, fun t denoted => ?_⟩
  · obtain ⟨word, s, c, whole, four, -⟩ := code denoted
    have length : 2 = word.length + s.length := (congrArg List.length whole).trans List.length_append
    omega
  · obtain ⟨word, s, c, whole, four, values, read, -⟩ := code denoted
    obtain ⟨rfl, -⟩ := List.append_inj (show ['+', '0', '4', '1'] ++ [] = word ++ s from whole) four.symm
    obtain ⟨n, -, plus, -⟩ := List.forall₂_cons_left_iff.1 read
    exact absurd (hexDigit?_eq_some_iff.2 plus) (by simp [hexDigit?])

end Token
end Stencil
