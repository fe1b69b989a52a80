/-!
# Byte offsets

Places in a text counted in the bytes of its UTF-8 form.
-/
namespace Stencil.Text

def byteLength : List Char → Nat
  | [] => 0
  | c :: s => c.utf8Size + byteLength s

/-- The characters from the byte offset `n` on. -/
def dropBytes : Nat → List Char → List Char
  | _, [] => []
  | 0, s => s
  | n + 1, c :: s => dropBytes (n + 1 - c.utf8Size) s

/-- The characters that begin before the byte offset `n`. -/
def takeBytes : Nat → List Char → List Char
  | _, [] => []
  | 0, _ => []
  | n + 1, c :: s => c :: takeBytes (n + 1 - c.utf8Size) s

/-- The characters between two byte offsets. -/
def betweenBytes (start stop : Nat) (s : List Char) : List Char :=
  takeBytes (stop - start) (dropBytes start s)

/-- Whether a character begins at the byte offset `n`, or the text ends there. -/
def isBoundary : Nat → List Char → Bool
  | 0, _ => true
  | _ + 1, [] => false
  | n + 1, c :: s => c.utf8Size ≤ n + 1 && isBoundary (n + 1 - c.utf8Size) s

/-- The characters between two byte offsets, which must not lie inside a character or behind the end.
Nothing is cut out where the second offset is not behind the first. -/
def cutBytes? (start stop : Nat) (s : List Char) : Option (List Char) :=
  if stop ≤ start then some []
  else if isBoundary start s ∧ isBoundary stop s then some (betweenBytes start stop s)
  else none

@[simp] theorem byteLength_nil : byteLength [] = 0 := rfl

@[simp] theorem byteLength_cons (c : Char) (s : List Char) :
    byteLength (c :: s) = c.utf8Size + byteLength s := rfl

@[simp] theorem byteLength_append (s t : List Char) :
    byteLength (s ++ t) = byteLength s + byteLength t := by
  induction s with
  | nil => simp
  | cons c s ih => simp [ih, Nat.add_assoc]

theorem utf8Size_ne_zero (c : Char) : c.utf8Size ≠ 0 := by
  have := Char.utf8Size_pos c
  omega

theorem takeBytes_zero (s : List Char) : takeBytes 0 s = [] := by
  cases s <;> rfl

theorem eq_betweenBytes_of_cutBytes? {start stop : Nat} {s raw : List Char}
    (h : cutBytes? start stop s = some raw) : raw = betweenBytes start stop s := by
  unfold cutBytes? at h
  split at h
  · rename_i empty
    rw [betweenBytes, Nat.sub_eq_zero_of_le empty, takeBytes_zero]
    exact (Option.some.inj h).symm
  · split at h
    · exact (Option.some.inj h).symm
    · simp at h

theorem dropBytes_append (s t : List Char) : dropBytes (byteLength s) (s ++ t) = t := by
  induction s with
  | nil => cases t <;> simp [dropBytes]
  | cons c s ih =>
    have size := utf8Size_ne_zero c
    obtain ⟨n, hn⟩ : ∃ n, c.utf8Size + byteLength s = n + 1 :=
      ⟨c.utf8Size + byteLength s - 1, by omega⟩
    rw [byteLength_cons, hn, List.cons_append, dropBytes, ← hn, Nat.add_sub_cancel_left, ih]

theorem takeBytes_append (s t : List Char) : takeBytes (byteLength s) (s ++ t) = s := by
  induction s with
  | nil => cases t <;> simp [takeBytes]
  | cons c s ih =>
    have size := utf8Size_ne_zero c
    obtain ⟨n, hn⟩ : ∃ n, c.utf8Size + byteLength s = n + 1 :=
      ⟨c.utf8Size + byteLength s - 1, by omega⟩
    rw [byteLength_cons, hn, List.cons_append, takeBytes, ← hn, Nat.add_sub_cancel_left, ih]

/-- Offsets that cut a text into three parts give its middle part. -/
theorem betweenBytes_append (before middle after : List Char) :
    betweenBytes (byteLength before) (byteLength before + byteLength middle)
      (before ++ (middle ++ after)) = middle := by
  rw [betweenBytes, dropBytes_append, Nat.add_sub_cancel_left, takeBytes_append]

theorem isBoundary_append_add (s t : List Char) (n : Nat) :
    isBoundary (byteLength s + n) (s ++ t) = isBoundary n t := by
  induction s with
  | nil => simp
  | cons c s ih =>
    obtain ⟨m, hm⟩ : ∃ m, c.utf8Size + byteLength s + n = m + 1 :=
      ⟨c.utf8Size + byteLength s + n - 1, by have := c.utf8Size_pos; omega⟩
    have inside : c.utf8Size ≤ m + 1 := by omega
    have behind : m + 1 - c.utf8Size = byteLength s + n := by omega
    simp only [byteLength_cons, hm, List.cons_append, isBoundary, inside, decide_true,
      Bool.true_and, behind, ih]

/-- The ends of a text are boundaries. -/
theorem isBoundary_append (s t : List Char) : isBoundary (byteLength s) (s ++ t) = true := by
  have := isBoundary_append_add s t 0
  simpa [isBoundary] using this

/-- Offsets that cut a text into three parts cut out its middle part. -/
theorem cutBytes?_append (before middle after : List Char) :
    cutBytes? (byteLength before) (byteLength before + byteLength middle)
      (before ++ (middle ++ after)) = some middle := by
  have opens := isBoundary_append before (middle ++ after)
  have closes := isBoundary_append (before ++ middle) after
  rw [byteLength_append, List.append_assoc] at closes
  have whole := betweenBytes_append before middle after
  unfold cutBytes?
  split
  · rename_i empty
    rw [betweenBytes, Nat.sub_eq_zero_of_le empty, takeBytes_zero] at whole
    rw [whole]
  · rw [if_pos ⟨opens, closes⟩, whole]

example : cutBytes? 1 3 ['é', 'x'] = none :=
  rfl

end Stencil.Text
