import BoolTensor.Cnf.Dimacs
import Mathlib

/-!
# Reading DIMACS text back

The text of a formula is made of words: those of the header, and for each clause those of its
literals and a zero. Every integer is read back from its word, and as no literal is zero, the zeros
cut the integers into the clauses again.

## Main definitions

* `Dimacs.IsWord`: letters without a blank among them
* `Dimacs.integers`: the literals of all clauses, with a zero after each clause
-/

namespace BoolTensor

/-! ### Digits -/

namespace Text

theorem natural?_toDigits (n : Nat) : natural? (Nat.toDigits 10 n) = some n := by
  have hnonempty : (Nat.toDigits 10 n).isEmpty = false := by simp
  have hdigits : (Nat.toDigits 10 n).all Char.isDigit = true :=
    List.all_eq_true.2 fun c hc => Nat.isDigit_of_mem_toDigits (by decide) (by decide) hc
  rw [natural?, hnonempty, hdigits, Nat.ofDigitChars_toDigits (by decide) (by decide)]
  rfl

/-- Digits alone are read as a number without a sign. -/
theorem signed?_of_digits {digits : List Char} (h : ∀ c ∈ digits, c.isDigit = true) :
    signed? digits = (natural? digits).map Int.ofNat := by
  unfold signed?
  split
  · exact absurd (h '-' List.mem_cons_self) (by decide)
  · exact absurd (h '+' List.mem_cons_self) (by decide)
  · rfl

end Text

namespace Dimacs

theorem signed?_integer (value : Int) : Text.signed? (integer value) = some value := by
  rw [integer]
  split
  · rename_i hneg
    have habs : -(value.natAbs : Int) = value := by omega
    rw [Text.signed?, Text.natural?_toDigits]
    exact congrArg some habs
  · rename_i hnonneg
    have hdigits : ∀ c ∈ Nat.toDigits 10 value.natAbs, c.isDigit = true :=
      fun c hc => Nat.isDigit_of_mem_toDigits (by decide) (by decide) hc
    rw [Text.signed?_of_digits hdigits, Text.natural?_toDigits, Option.map_some]
    exact congrArg some (Int.natAbs_of_nonneg (not_lt.1 hnonneg))

theorem mapM_signed?_integer (values : List Int) :
    (values.map integer).mapM Text.signed? = some values := by
  induction values with
  | nil => rfl
  | cons value values ih => rw [List.map_cons, List.mapM_cons, signed?_integer, ih]; rfl

/-! ### Words -/

/-- Letters without a blank among them. -/
structure IsWord (word : List Char) : Prop where
  ne_nil : word ≠ []
  no_blank : ∀ c ∈ word, isBlank c = false

theorem isBlank_of_isDigit {c : Char} (h : c.isDigit = true) : isBlank c = false := by
  by_contra hblank
  rw [Bool.not_eq_false, isBlank, Bool.or_eq_true, decide_eq_true_iff, decide_eq_true_iff] at hblank
  rcases hblank with rfl | rfl
  · exact absurd h (by decide)
  · exact absurd h (by decide)

theorem isWord_toDigits (n : Nat) : IsWord (Nat.toDigits 10 n) where
  ne_nil := Nat.toDigits_ne_nil
  no_blank _ hc := isBlank_of_isDigit (Nat.isDigit_of_mem_toDigits (by decide) (by decide) hc)

theorem isWord_integer (value : Int) : IsWord (integer value) := by
  have hdigits := isWord_toDigits value.natAbs
  rw [integer]
  split
  · exact ⟨by simp, List.forall_mem_cons.2 ⟨rfl, hdigits.no_blank⟩⟩
  · exact hdigits

/-- Letters are added to the current word. -/
theorem wordsFrom_append {letters : List Char} (h : ∀ c ∈ letters, isBlank c = false)
    (word rest : List Char) :
    wordsFrom word (letters ++ rest) = wordsFrom (letters.reverse ++ word) rest := by
  induction letters generalizing word with
  | nil => rfl
  | cons c letters ih =>
    rw [List.forall_mem_cons] at h
    rw [List.cons_append, wordsFrom, h.1, if_neg Bool.false_ne_true, ih h.2, List.reverse_cons,
      List.append_assoc]
    rfl

/-- A word ends at a blank. -/
theorem words_append_cons {word : List Char} (h : IsWord word) {blank : Char}
    (hblank : isBlank blank = true) (rest : List Char) :
    words (word ++ blank :: rest) = word :: words rest := by
  have hletters : (word.reverse ++ []).isEmpty = false := by simpa using h.ne_nil
  rw [words, wordsFrom_append h.no_blank, wordsFrom, if_pos hblank, hletters,
    if_neg Bool.false_ne_true, List.append_nil, List.reverse_reverse]
  rfl

/-- The literals of all clauses, with a zero after each clause. -/
def integers (formula : Formula) : List Int :=
  formula.flatMap (· ++ [0])

theorem words_line (clause : Clause) (rest : List Char) :
    words (line (clause.map integer) ++ rest) = (clause ++ [0]).map integer ++ words rest := by
  induction clause with
  | nil => exact words_append_cons (isWord_integer 0) rfl rest
  | cons l clause ih =>
    have hline : line ((l :: clause).map integer) ++ rest =
        integer l ++ ' ' :: (line (clause.map integer) ++ rest) := by
      simp [line]
    have hblank : isBlank ' ' = true := by decide
    rw [hline, words_append_cons (isWord_integer l) hblank, ih]
    rfl

theorem words_lines (formula : Formula) :
    words ((formula.map (·.map integer)).flatMap line) = (integers formula).map integer := by
  induction formula with
  | nil => rfl
  | cons clause formula ih =>
    rw [List.map_cons, List.flatMap_cons, words_line, ih, ← List.map_append]
    rfl

theorem words_header (variableCount clauseCount : Nat) (rest : List Char) :
    words (header variableCount clauseCount ++ rest) =
      ['p'] :: ['c', 'n', 'f'] :: Nat.toDigits 10 variableCount ::
        Nat.toDigits 10 clauseCount :: words rest := by
  have hheader : header variableCount clauseCount = "p cnf ".toList ++
      Nat.toDigits 10 variableCount ++ ' ' :: Nat.toDigits 10 clauseCount ++ ['\n'] := rfl
  have hstart : "p cnf ".toList = ['p'] ++ ' ' :: (['c', 'n', 'f'] ++ [' ']) := by simp
  have hp : IsWord ['p'] := ⟨by simp, by simp [isBlank]⟩
  have hcnf : IsWord ['c', 'n', 'f'] := ⟨by simp, by simp [isBlank]⟩
  have hblank : isBlank ' ' = true := by decide
  have hend : isBlank '\n' = true := by decide
  rw [hheader, hstart]
  simp only [List.append_assoc, List.cons_append (a := ' '), List.nil_append]
  rw [words_append_cons hp hblank, words_append_cons hcnf hblank,
    words_append_cons (isWord_toDigits variableCount) hblank, List.singleton_append,
    words_append_cons (isWord_toDigits clauseCount) hend]

theorem words_write (variableCount : Nat) (formula : Formula) :
    words (write variableCount formula) =
      ['p'] :: ['c', 'n', 'f'] :: Nat.toDigits 10 variableCount ::
        Nat.toDigits 10 formula.length :: (integers formula).map integer := by
  rw [write, writeWords, words_header, words_lines, List.length_map]

/-! ### Clauses -/

/-- Integers other than zero are added to the current clause. -/
theorem cut_append {literals : List Int} (h : ∀ l ∈ literals, l ≠ 0) (clause : Clause)
    (rest : List Int) : cut clause (literals ++ rest) = cut (clause ++ literals) rest := by
  induction literals generalizing clause with
  | nil => rw [List.nil_append, List.append_nil]
  | cons l literals ih =>
    rw [List.forall_mem_cons] at h
    rw [List.cons_append, cut, if_neg h.1, ih h.2, List.append_assoc]
    rfl

theorem cut_integers {formula : Formula} (h : ∀ clause ∈ formula, ∀ l ∈ clause, l ≠ 0) :
    cut [] (integers formula) = formula := by
  induction formula with
  | nil => rfl
  | cons clause formula ih =>
    rw [List.forall_mem_cons] at h
    rw [integers, List.flatMap_cons, List.append_assoc, cut_append h.1, List.nil_append,
      List.singleton_append, cut, if_pos rfl, ← integers, ih h.2]

/-- The numbers of the header and the clauses come back from the text. -/
theorem read?_write (variableCount : Nat) {formula : Formula}
    (h : ∀ clause ∈ formula, ∀ l ∈ clause, l ≠ 0) :
    read? (write variableCount formula) = some (variableCount, formula.length, formula) := by
  rw [read?, words_write]
  simp only [Text.natural?_toDigits, mapM_signed?_integer, Option.bind_eq_bind, Option.bind_some,
    cut_integers h, Option.pure_def]

/-- Only one formula over so many variables has a text. -/
theorem write_inj {m n : Nat} {f g : Formula} (hf : ∀ clause ∈ f, ∀ l ∈ clause, l ≠ 0)
    (hg : ∀ clause ∈ g, ∀ l ∈ clause, l ≠ 0) : write m f = write n g ↔ m = n ∧ f = g := by
  constructor
  · intro h
    have hread := (read?_write m hf).symm.trans ((congrArg read? h).trans (read?_write n hg))
    simp only [Option.some.injEq, Prod.mk.injEq] at hread
    exact ⟨hread.1, hread.2.2⟩
  · rintro ⟨rfl, rfl⟩
    rfl

end Dimacs

end BoolTensor
