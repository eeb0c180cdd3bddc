import Precedence.Text.Unicode.CaseFolding
import Precedence.Text.Unicode.Property
import Precedence.Text.Unicode.Script

/-!
# Sets of characters

The sets that a pattern can name: ranges, Unicode classes and what set operations make of them.
-/

namespace Precedence.Regex

open Text

inductive CharSet where
  | all
  | range (first last : Char)
  | word
  | digit
  | space
  | category (category : Unicode.Category)
  | property (property : Unicode.Property)
  | script (script : Unicode.Script)
  | compl (s : CharSet)
  | union (s t : CharSet)
  | inter (s t : CharSet)
  /-- Whatever equals a member up to case. -/
  | foldCase (s : CharSet)

namespace CharSet

def contains : CharSet → Char → Bool
  | all, _ => true
  | range first last, c => first ≤ c && c ≤ last
  | word, c => Unicode.isWord c
  | digit, c => Unicode.isDigit c
  | space, c => Unicode.isSpace c
  | category k, c => k.contains c
  | property p, c => p.contains c
  | script s, c => s.contains c
  | compl s, c => !s.contains c
  | union s t, c => s.contains c || t.contains c
  | inter s t, c => s.contains c && t.contains c
  | foldCase s, c => (Unicode.orbit c).any s.contains

def empty : CharSet :=
  compl all

def single (c : Char) : CharSet :=
  range c c

def ascii : CharSet :=
  range (Char.ofNat 0) (Char.ofNat 127)

def ofList (cs : List Char) : CharSet :=
  cs.foldr (fun c s => union (single c) s) empty

def diff (s t : CharSet) : CharSet :=
  inter s (compl t)

def symmDiff (s t : CharSet) : CharSet :=
  union (diff s t) (diff t s)

def unions (sets : List CharSet) : CharSet :=
  sets.foldr union empty

@[simp] theorem contains_empty (c : Char) : empty.contains c = false := rfl

@[simp] theorem contains_single (c d : Char) : (single c).contains d = (c == d) := by
  rw [Bool.eq_iff_iff]
  simp only [single, contains, Bool.and_eq_true, decide_eq_true_eq, beq_iff_eq]
  exact ⟨fun ⟨h, h'⟩ => Char.le_antisymm h h', fun h => h ▸ ⟨Char.le_refl c, Char.le_refl c⟩⟩

@[simp] theorem contains_ofList (cs : List Char) (c : Char) :
    (ofList cs).contains c = cs.contains c := by
  induction cs with
  | nil => rfl
  | cons d ds ih =>
    have h : ofList (d :: ds) = union (single d) (ofList ds) := rfl
    rw [h, contains, ih, contains_single, List.contains_cons]
    congr 1
    exact Bool.eq_iff_iff.mpr ⟨fun h => by simp_all, fun h => by simp_all⟩

end CharSet

end Precedence.Regex
