import DiagramLint.Number.Binary64
import DiagramLint.Proofs.Text.Ends

/-!
Literals of numbers. Blanks at their ends do not matter, and what stands between them is one word of digits, signs, points
and the letters of exponents (`numeral_of_read`).
-/
namespace DiagramLint.Binary64

open Text

/-- A character of numbers: a digit, a sign, a point, or the letter of an exponent. -/
def isNumeral (c : Char) : Bool := Integer.isDigit c || ['+', '-', '.', 'e', 'E'].contains c

variable {t : Text} {x : Binary64} {c : Char}

theorem read?_trim (t : Text) : read? (trim t) = read? t := by
  rw [read?, read?, trim_trim]

/-! ### Characters -/

theorem numeral_of_digit (digit : Integer.isDigit c = true) : isNumeral c = true := by simp [isNumeral, digit]

theorem visible_of_digit (digit : Integer.isDigit c = true) : isBlank c = false := by
  have apart : ∀ r ∈ blankRanges, r.2 < '0'.toNat ∨ '9'.toNat < r.1 := by decide
  obtain ⟨low, high⟩ : '0' ≤ c ∧ c ≤ '9' := by simpa [Integer.isDigit] using digit
  have from_zero : '0'.toNat ≤ c.toNat := low
  have to_nine : c.toNat ≤ '9'.toNat := high
  by_contra blank
  obtain ⟨r, member, inside⟩ := exists_range_of_inRanges (by simpa [isBlank] using blank)
  rcases apart r member with below | above
  · omega
  · omega

theorem visible_of_numeral (numeral : isNumeral c = true) : isBlank c = false := by
  have marks : ∀ c ∈ ['+', '-', '.', 'e', 'E'], isBlank c = false := by decide
  rcases Bool.or_eq_true_iff.mp numeral with digit | mark
  · exact visible_of_digit digit
  · exact marks c (List.contains_iff_mem.mp mark)

theorem numeral_of_takeWhile (t : Text) : ∀ c ∈ t.takeWhile Integer.isDigit, isNumeral c = true :=
  fun _ member => numeral_of_digit (List.mem_takeWhile_imp member)

/-- What is taken as a sign is a character of numbers. -/
theorem numeral_of_takeSign (others : ∀ c ∈ (takeSign t).2, isNumeral c = true) : ∀ c ∈ t, isNumeral c = true := by
  unfold takeSign at others
  split at others
  · exact List.forall_mem_cons.mpr ⟨by decide, others⟩
  · exact List.forall_mem_cons.mpr ⟨by decide, others⟩
  · exact others

theorem numeral_of_exponent {e : Int} (read : readExponent? t = some e) : ∀ c ∈ t, isNumeral c = true := by
  cases t with
  | nil => exact nofun
  | cons c t =>
    unfold readExponent? at read
    dsimp only at read
    split at read
    · next mark =>
      have letter : isNumeral c = true := by
        rcases Bool.or_eq_true_iff.mp mark with small | large
        · simp [isNumeral, of_decide_eq_true small]
        · simp [isNumeral, of_decide_eq_true large]
      split at read
      · cases read
      · next filled =>
        obtain ⟨-, digits⟩ : (takeSign t).2 ≠ [] ∧ ∀ d ∈ (takeSign t).2, Integer.isDigit d = true := by simpa using filled
        exact List.forall_mem_cons.mpr ⟨letter, numeral_of_takeSign fun d member => numeral_of_digit (digits d member)⟩
    · cases read

/-- What ends a number behind its digits is read as an exponent. -/
theorem numeral_behind {P : Prop} [Decidable P] {value : Int → Option Binary64}
    (read : (if P then none else
      match readExponent? t with
      | none => none
      | some e => value e) = some x) : ∀ c ∈ t, isNumeral c = true := by
  split at read
  · cases read
  · split at read
    · cases read
    · next e exponent => exact numeral_of_exponent exponent

/-- A number is written with characters of numbers, and with blanks at most at the ends. -/
theorem numeral_of_read (read : read? t = some x) : trim t ≠ [] ∧ ∀ c ∈ trim t, isNumeral c = true := by
  constructor
  · intro empty
    rw [← read?_trim, empty] at read
    cases read
  · unfold read? at read
    dsimp only at read
    refine numeral_of_takeSign ?_
    generalize (takeSign (trim t)).2 = u at read ⊢
    rw [← List.takeWhile_append_dropWhile (p := Integer.isDigit) (l := u)]
    refine List.forall_mem_append.mpr ⟨numeral_of_takeWhile u, ?_⟩
    -- What stands behind the first digits is a point with further digits in front of the exponent, or the exponent.
    split at read
    · next rest point =>
      rw [point]
      refine List.forall_mem_cons.mpr ⟨by decide, ?_⟩
      rw [← List.takeWhile_append_dropWhile (p := Integer.isDigit) (l := rest)]
      exact List.forall_mem_append.mpr ⟨numeral_of_takeWhile rest, numeral_behind read⟩
    · exact numeral_behind read

/-- A character that is neither blank nor a character of numbers does not stand in a literal. -/
theorem not_mem_of_read (read : read? t = some x) (visible : isBlank c = false) (foreign : isNumeral c = false) : c ∉ t := by
  obtain ⟨b, b', same, before, after⟩ := exists_trim t
  have inside : c ∉ trim t := fun member => by simp [(numeral_of_read read).2 c member] at foreign
  rw [same, List.mem_append, List.mem_append]
  rintro (front | within | back)
  · exact not_mem_of_blank before visible front
  · exact inside within
  · exact not_mem_of_blank after visible back

end DiagramLint.Binary64
