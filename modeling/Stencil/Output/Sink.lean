/-!
# Sinks

A sink takes texts one after another, perhaps up to a number of bytes. A text that does not fit is
refused whole, and the sink stays as it was.
-/
namespace Stencil

structure Sink where
  text : String
  limit? : Option Nat
  deriving DecidableEq, Repr

namespace Sink

def unlimited : Sink := ⟨"", none⟩

def upTo (limit : Nat) : Sink := ⟨"", some limit⟩

/-- Whether one more text fits. The empty text always does. -/
def accepts (s : Sink) (piece : String) : Bool :=
  piece.isEmpty ||
    match s.limit? with
    | none => true
    | some limit => s.text.utf8ByteSize + piece.utf8ByteSize ≤ limit

def put? (s : Sink) (piece : String) : Option Sink :=
  if s.accepts piece then some { s with text := s.text ++ piece } else none

theorem put?_of_limit?_eq_none {s : Sink} (h : s.limit? = none) (piece : String) :
    s.put? piece = some { s with text := s.text ++ piece } := by
  simp [put?, accepts, h]

/-- Puts texts one after another until one is refused; the answer says whether all were taken. -/
def putAll (s : Sink) : List String → Sink × Bool
  | [] => (s, true)
  | piece :: rest =>
    match s.put? piece with
    | some t => putAll t rest
    | none => (s, false)

/-- The sink with more text in it, whether it would have taken that text or not. -/
def append (s : Sink) (t : String) : Sink := { s with text := s.text ++ t }

@[simp] theorem text_append (s : Sink) (t : String) : (s.append t).text = s.text ++ t := rfl

@[simp] theorem limit?_append (s : Sink) (t : String) : (s.append t).limit? = s.limit? := rfl

@[simp] theorem append_empty (s : Sink) : s.append "" = s := by simp [append]

theorem append_append (s : Sink) (t u : String) : (s.append t).append u = s.append (t ++ u) := by
  simp [append, String.append_assoc]

theorem put?_eq (s : Sink) (piece : String) :
    s.put? piece = if s.accepts piece then some (s.append piece) else none := rfl

theorem accepts_of_limit?_eq_none {s : Sink} (h : s.limit? = none) (t : String) :
    s.accepts t = true := by
  simp [accepts, h]

@[simp] theorem accepts_empty (s : Sink) : s.accepts "" = true := by simp [accepts]

theorem accepts_iff {s : Sink} {limit : Nat} (h : s.limit? = some limit) (t : String) :
    s.accepts t = true ↔ t = "" ∨ s.text.utf8ByteSize + t.utf8ByteSize ≤ limit := by
  simp [accepts, h]

/-- A text fits exactly if its first part does and the second behind it. -/
theorem accepts_append (s : Sink) (t u : String) :
    s.accepts (t ++ u) = (s.accepts t && (s.append t).accepts u) := by
  rw [Bool.eq_iff_iff, Bool.and_eq_true]
  cases limited : s.limit? with
  | none => simp [accepts_of_limit?_eq_none, limited]
  | some limit =>
    rw [accepts_iff limited, accepts_iff limited, accepts_iff (s := s.append t) limited]
    simp only [text_append, String.utf8ByteSize_append, ← String.utf8ByteSize_eq_zero_iff]
    omega

end Sink
end Stencil
