/-!
# Characters measured in bytes

Texts are lists of characters, offsets are counted in the bytes of their UTF-8 form. Cutting a text
at an offset and measuring the piece in front of the cut are inverse to each other
(`dropBytes_byteLength`, `takeBytes_byteLength`).
-/

namespace Precedence.Text

/-- The length of a text in bytes. -/
def byteLength : List Char → Nat
  | [] => 0
  | c :: cs => c.utf8Size + byteLength cs

/-- The text without its first `n` bytes; a character that the cut falls into goes with them. -/
def dropBytes : Nat → List Char → List Char
  | 0, cs => cs
  | _, [] => []
  | n, c :: cs => dropBytes (n - c.utf8Size) cs

/-- The characters that start within the first `n` bytes. -/
def takeBytes : Nat → List Char → List Char
  | 0, _ => []
  | _, [] => []
  | n, c :: cs => c :: takeBytes (n - c.utf8Size) cs

@[simp] theorem byteLength_nil : byteLength [] = 0 := rfl

@[simp] theorem byteLength_cons (c : Char) (cs : List Char) :
    byteLength (c :: cs) = c.utf8Size + byteLength cs := rfl

@[simp] theorem byteLength_append (a b : List Char) :
    byteLength (a ++ b) = byteLength a + byteLength b := by
  induction a with
  | nil => simp
  | cons c cs ih => simp [ih, Nat.add_assoc]

@[simp] theorem byteLength_reverse (cs : List Char) : byteLength cs.reverse = byteLength cs := by
  induction cs with
  | nil => rfl
  | cons c cs ih => simp [ih, Nat.add_comm]

@[simp] theorem dropBytes_zero (cs : List Char) : dropBytes 0 cs = cs := by
  simp [dropBytes]

@[simp] theorem takeBytes_zero (cs : List Char) : takeBytes 0 cs = [] := by
  simp [takeBytes]

theorem dropBytes_byteLength (a b : List Char) : dropBytes (byteLength a) (a ++ b) = b := by
  induction a with
  | nil => simp
  | cons c cs ih =>
    have hc := c.utf8Size_pos
    obtain ⟨k, hk⟩ : ∃ k, byteLength (c :: cs) = k + 1 :=
      ⟨byteLength (c :: cs) - 1, by simp only [byteLength_cons]; omega⟩
    have hs : k + 1 - c.utf8Size = byteLength cs := by simp only [byteLength_cons] at hk; omega
    rw [hk, List.cons_append, dropBytes, hs, ih]
    simp

theorem takeBytes_byteLength (a b : List Char) : takeBytes (byteLength a) (a ++ b) = a := by
  induction a with
  | nil => simp
  | cons c cs ih =>
    have hc := c.utf8Size_pos
    obtain ⟨k, hk⟩ : ∃ k, byteLength (c :: cs) = k + 1 :=
      ⟨byteLength (c :: cs) - 1, by simp only [byteLength_cons]; omega⟩
    have hs : k + 1 - c.utf8Size = byteLength cs := by simp only [byteLength_cons] at hk; omega
    rw [hk, List.cons_append, takeBytes, hs, ih]
    simp

end Precedence.Text
