import Precedence.Text.Unicode.Classes

/-!
# White space is no word

No character is white space and a word character at once (`isWord_of_isSpace`). What holds of each
of the first 128 characters holds of all ASCII characters (`forall_ascii`).
-/

namespace Precedence.Text.Unicode

theorem forall_ascii {p : Char → Bool} (h : ∀ n < 128, p (Char.ofNat n) = true) {c : Char}
    (hc : isAscii c = true) : p c = true := by
  have hp := h c.toNat (by simpa [isAscii] using hc)
  rwa [Char.ofNat_toNat] at hp

/-- The white space beyond ASCII. -/
def wideSpaces : List Nat :=
  [0x85, 0xa0, 0x1680, 0x2000, 0x2001, 0x2002, 0x2003, 0x2004, 0x2005, 0x2006, 0x2007, 0x2008,
    0x2009, 0x200a, 0x2028, 0x2029, 0x202f, 0x205f, 0x3000]

theorem toNat_mem_wideSpaces {c : Char} (h : isSpace c = true) (hc : isAscii c = false) :
    c.toNat ∈ wideSpaces := by
  simp only [isSpace, hc, Bool.false_eq_true, if_false, Runs.contains, List.any_cons, List.any_nil,
    Bool.or_false, Bool.or_eq_true, Bool.and_eq_true, decide_eq_true_eq] at h
  simp only [wideSpaces, List.mem_cons, List.not_mem_nil, or_false]
  omega

/-- A character that is white space is no word character. -/
theorem isWord_of_isSpace {c : Char} (h : isSpace c = true) : isWord c = false := by
  rcases hc : isAscii c with _ | _
  · have hall : ∀ n ∈ wideSpaces, isWord (Char.ofNat n) = false := by decide +kernel
    rw [← hall _ (toNat_mem_wideSpaces h hc), Char.ofNat_toNat]
  · have hall := forall_ascii (p := fun c => !isSpace c || !isWord c) (by decide +kernel) hc
    simpa [h] using hall

theorem isSpace_of_isWord {c : Char} (h : isWord c = true) : isSpace c = false := by
  rw [Bool.eq_false_iff]
  intro hspace
  rw [isWord_of_isSpace hspace] at h
  exact Bool.noConfusion h

end Precedence.Text.Unicode
