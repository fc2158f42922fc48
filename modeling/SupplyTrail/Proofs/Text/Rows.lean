import SupplyTrail.Proofs.Text.Numerals
/-!
# Rows — numbers of fixed widths, written one after another

A row is a list of numbers, each written by as many digits as its column is wide and followed by the mark of its column.
The numbers can be read off the text, whatever the widths are (`Row.numbers_eq`), and in columns of the same widths the
texts are ordered as the numbers are (`Row.lt`).
-/
namespace SupplyTrail.Text

variable {width n n' : Nat} {digits digits' : List Char}

/-- A numeral of so many digits. -/
structure Field (width n : Nat) (digits : List Char) : Prop where
  numeral : Numeral digits n
  length : digits.length = width

theorem digitChar_digitValue {c : Char} (h : isDigit c = true) : digitValue c < 10 ∧ digitChar (digitValue c) = c := by
  have hrange : 48 ≤ c.toNat ∧ c.toNat ≤ 57 := by
    simpa [isDigit, Char.le_def, UInt32.le_iff_toNat_le] using h
  unfold digitChar digitValue
  refine ⟨by omega, ?_⟩
  rw [Nat.add_sub_cancel' hrange.1, Char.ofNat_toNat]

/-- A run of digits is the written form of its number in that width. -/
theorem eq_decimalPadded (hdigit : ∀ c ∈ digits, isDigit c = true) :
    digits = decimalPadded digits.length (ofDigits digits) := by
  induction digits using List.reverseRecOn with
  | nil => rfl
  | append_singleton init c ih =>
    obtain ⟨hinit, hlast⟩ := List.forall_mem_append.1 hdigit
    obtain ⟨hlt, hchar⟩ := digitChar_digitValue (hlast c (List.mem_singleton.2 rfl))
    have hdiv : (10 * ofDigits init + digitValue c) / 10 = ofDigits init := by omega
    have hmod : (10 * ofDigits init + digitValue c) % 10 = digitValue c := by omega
    rw [ofDigits_append_singleton, List.length_append, List.length_singleton, decimalPadded, hdiv, hmod, hchar,
      ← ih hinit]

theorem length_decimalPadded (width n : Nat) : (decimalPadded width n).length = width := by
  induction width generalizing n with
  | zero => rfl
  | succ width ih => rw [decimalPadded, List.length_append, ih, List.length_singleton]

theorem isDigit_of_mem_decimalPadded {c : Char} (h : c ∈ decimalPadded width n) : isDigit c = true := by
  induction width generalizing n with
  | zero => cases h
  | succ width ih =>
    rcases List.mem_append.1 h with hinit | hlast
    · exact ih hinit
    · rw [List.mem_singleton.1 hlast]
      exact (digitValue_digitChar _ (Nat.mod_lt n (by decide))).2

theorem ofDigits_decimalPadded (h : n < 10 ^ width) : ofDigits (decimalPadded width n) = n := by
  induction width generalizing n with
  | zero =>
    have hzero : n = 0 := by simpa using h
    rw [hzero]
    rfl
  | succ width ih =>
    rw [decimalPadded, ofDigits_append_singleton, ih (by rw [pow_succ] at h; omega),
      (digitValue_digitChar _ (Nat.mod_lt n (by decide))).1]
    exact Nat.div_add_mod n 10

theorem ofDigits_lt_pow (hdigit : ∀ c ∈ digits, isDigit c = true) : ofDigits digits < 10 ^ digits.length := by
  induction digits using List.reverseRecOn with
  | nil => decide
  | append_singleton init c ih =>
    obtain ⟨hinit, hlast⟩ := List.forall_mem_append.1 hdigit
    have hlt := (digitChar_digitValue (hlast c (List.mem_singleton.2 rfl))).1
    have hbefore := ih hinit
    rw [ofDigits_append_singleton, List.length_append, List.length_singleton, pow_succ]
    omega

/-- **A number is written in a width in one way**, if it has no more digits. -/
theorem field_iff (hwidth : 0 < width) : Field width n digits ↔ n < 10 ^ width ∧ digits = decimalPadded width n := by
  constructor
  · rintro ⟨hnumeral, rfl⟩
    obtain ⟨-, hdigit, rfl⟩ := numeral_iff.1 hnumeral
    exact ⟨ofDigits_lt_pow hdigit, eq_decimalPadded hdigit⟩
  · rintro ⟨hlt, rfl⟩
    refine ⟨numeral_iff.2 ⟨?_, fun _ => isDigit_of_mem_decimalPadded, ofDigits_decimalPadded hlt⟩,
      length_decimalPadded width n⟩
    exact List.ne_nil_of_length_pos ((length_decimalPadded width n).symm ▸ hwidth)

theorem Field.width_pos (h : Field width n digits) : 0 < width :=
  h.length ▸ List.length_pos_iff.2 h.numeral.nonempty

theorem Field.eq (h : Field width n digits) (h' : Field width n digits') : digits = digits' := by
  rw [((field_iff h.width_pos).1 h).2, ((field_iff h.width_pos).1 h').2]

theorem decimalChars_eq_decimalPadded (hleast : 10 ^ width ≤ n) (hmost : n < 10 ^ (width + 1)) :
    decimalChars n = decimalPadded (width + 1) n := by
  induction width generalizing n with
  | zero =>
    rw [decimalChars, if_pos (by simpa using hmost), decimalPadded, decimalPadded, List.nil_append,
      Nat.mod_eq_of_lt (by simpa using hmost)]
  | succ width ih =>
    rw [pow_succ] at hleast
    rw [pow_succ] at hmost
    have hpos : 0 < 10 ^ width := Nat.pow_pos (by decide)
    rw [decimalChars, if_neg (by omega), ih (by omega) (by omega)]
    rfl

/-! ## Order -/

theorem append_lt_append {l l' r r' : List Char} (h : l < l') (hlength : l.length = l'.length) : l ++ r < l' ++ r' := by
  induction l generalizing l' with
  | nil =>
    cases l' with
    | nil => exact absurd h (List.lt_irrefl [])
    | cons => cases hlength
  | cons c l ih =>
    cases l' with
    | nil => cases hlength
    | cons c' l' =>
      rcases List.cons_lt_cons_iff.1 h with hc | ⟨hc, hl⟩
      · exact List.cons_lt_cons_iff.2 (.inl hc)
      · exact List.cons_lt_cons_iff.2 (.inr ⟨hc, ih hl (Nat.succ.inj hlength)⟩)

theorem digitChar_lt : ∀ m < 10, ∀ n < m, digitChar n < digitChar m := by decide

theorem decimalPadded_lt (hlt : n < n') (hmost : n' < 10 ^ width) : decimalPadded width n < decimalPadded width n' := by
  induction width generalizing n n' with
  | zero =>
    have hnone : n' < 1 := hmost
    omega
  | succ width ih =>
    rw [pow_succ] at hmost
    rw [decimalPadded, decimalPadded]
    by_cases hfront : n / 10 < n' / 10
    · exact append_lt_append (ih hfront (by omega)) (by rw [length_decimalPadded, length_decimalPadded])
    · have heq : n / 10 = n' / 10 := by omega
      rw [heq]
      have hlast : digitChar (n % 10) < digitChar (n' % 10) := digitChar_lt _ (by omega) _ (by omega)
      exact List.append_left_lt (List.cons_lt_cons_iff.2 (.inl hlast))

theorem Field.lt (h : Field width n digits) (h' : Field width n' digits') (hlt : n < n') : digits < digits' := by
  obtain ⟨-, rfl⟩ := (field_iff h.width_pos).1 h
  obtain ⟨hmost, rfl⟩ := (field_iff h.width_pos).1 h'
  exact decimalPadded_lt hlt hmost

/-! ## Rows -/

/-- Numbers written one after another, each in the width of its column and with the mark of the column after it, and
then `rest`. -/
inductive Row (rest : List Char) : List (Nat × Char) → List Nat → List Char → Prop
  | nil : Row rest [] [] rest
  | cons {width : Nat} {mark : Char} {n : Nat} {digits : List Char} {columns : List (Nat × Char)} {ns : List Nat}
      {text : List Char} (hfield : Field width n digits) (h : Row rest columns ns text) :
      Row rest ((width, mark) :: columns) (n :: ns) (digits ++ mark :: text)

variable {rest rest' text text' : List Char} {columns columns' : List (Nat × Char)} {ns ns' : List Nat}

theorem Row.text_eq (h : Row rest columns ns text) (h' : Row rest columns ns text') : text = text' := by
  induction h generalizing text' with
  | nil => cases h'; rfl
  | cons hfield _ ih =>
    cases h' with
    | cons hfield' h' => rw [hfield.eq hfield', ih h']

/-- A numeral ends before the first character that is no digit. -/
theorem numeral_append_inj {mark mark' : Char} (h : Numeral digits n) (h' : Numeral digits' n')
    (hmark : isDigit mark = false) (hmark' : isDigit mark' = false)
    (htext : digits ++ mark :: text = digits' ++ mark' :: text') : n = n' ∧ text = text' := by
  have htake := congrArg (List.takeWhile isDigit) htext
  rw [takeWhile_isDigit_append h.digit (by simpa using hmark),
    takeWhile_isDigit_append h'.digit (by simpa using hmark')] at htake
  subst htake
  refine ⟨h.value.symm.trans h'.value, ?_⟩
  exact (List.cons.inj (List.append_cancel_left htext)).2

/-- **The numbers can be read off a row**: a mark that is no digit ends a numeral, so they need not be written in the
same widths. -/
theorem Row.numbers_eq (h : Row rest columns ns text) (h' : Row rest' columns' ns' text')
    (hmarks : columns.map Prod.snd = columns'.map Prod.snd) (hmark : ∀ c ∈ columns.map Prod.snd, isDigit c = false)
    (htext : text = text') : ns = ns' := by
  induction h generalizing columns' ns' text' with
  | nil =>
    cases h' with
    | nil => rfl
    | cons => cases hmarks
  | cons hfield _ ih =>
    cases h' with
    | nil => cases hmarks
    | cons hfield' h' =>
      obtain ⟨rfl, hrest⟩ := List.cons.inj hmarks
      obtain ⟨hfirst, hmore⟩ := List.forall_mem_cons.1 hmark
      obtain ⟨rfl, htail⟩ := numeral_append_inj hfield.numeral hfield'.numeral hfirst hfirst htext
      rw [ih h' hrest hmore htail]

theorem Row.isDigit_head {column : Nat × Char} (h : Row rest (column :: columns) ns text) :
    ∀ c ∈ text.head?, isDigit c = true := by
  cases h with
  | @cons _ _ _ digits _ _ _ hfield h =>
    obtain ⟨c, cs, rfl⟩ := List.exists_cons_of_ne_nil hfield.numeral.nonempty
    simpa using hfield.numeral.digit c List.mem_cons_self

theorem Row.mark_mem {mark : Char} (h : Row rest ((width, mark) :: columns) ns text) : mark ∈ text := by
  cases h with
  | cons => exact List.mem_append_right _ List.mem_cons_self

/-- **Rows are ordered as their numbers are.** -/
theorem Row.lt (h : Row rest columns ns text) (h' : Row rest' columns ns' text') (hlt : ns < ns') : text < text' := by
  induction h generalizing ns' text' with
  | nil =>
    cases h'
    exact absurd hlt (List.lt_irrefl [])
  | cons hfield _ ih =>
    cases h' with
    | cons hfield' h' =>
      rcases List.cons_lt_cons_iff.1 hlt with hless | ⟨rfl, hmore⟩
      · exact append_lt_append (hfield.lt hfield' hless) (hfield.length.trans hfield'.length.symm)
      · rw [hfield.eq hfield']
        exact List.append_left_lt (List.cons_lt_cons_iff.2 (.inr ⟨rfl, ih h' hmore⟩))

end SupplyTrail.Text
