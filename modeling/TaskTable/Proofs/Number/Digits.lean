import TaskTable.Number.Digits
import TaskTable.Number.Hexadecimal
import TaskTable.Number.Power

/-!
# Digits read back

Written digits are digits, the first of them is no needless zero, and the number read from them is
the number that was written. A text with a number behind it tells where the number begins, unless
the text itself ends in the digits of one.
-/

namespace TaskTable
namespace Number

/-! ## Digits without leading zeros -/

theorem isDigit_of_mem_digits {n : Nat} {c : Char} (h : c ∈ digits n) : c.isDigit = true :=
  Nat.isDigit_of_mem_toDigits (by omega) (Nat.le_refl 10) h

theorem digits_ne_nil (n : Nat) : digits n ≠ [] :=
  Nat.toDigits_ne_nil

theorem ofDigits_eq (ds : List Char) : ofDigits ds = Nat.ofDigitChars 10 ds 0 :=
  Nat.ofDigitChars_eq_foldl.symm

theorem ofDigits_digits (n : Nat) : ofDigits (digits n) = n := by
  rw [ofDigits_eq, digits, Nat.ofDigitChars_ten_toDigits]

theorem length_digits_le {n width : Nat} (hpos : 0 < width) (h : n < tenPow width) :
    (digits n).length ≤ width :=
  (Nat.length_toDigits_le_iff (by omega) hpos).2 h

/-- Only zero begins with a zero. -/
theorem head_digits {n : Nat} (h : 0 < n) : (digits n).head? ≠ some '0' := by
  induction n using Nat.strongRecOn with
  | _ n ih =>
    rcases Nat.lt_or_ge n 10 with hlt | hge
    · -- a single digit
      rw [digits, Nat.toDigits_of_lt_base hlt]
      have hdigit : ∀ k < 10, 0 < k → [Nat.digitChar k].head? ≠ some '0' := by decide
      exact hdigit n hlt h
    · rw [digits, Nat.toDigits_of_base_le (by omega) hge]
      have hrest := ih (n / 10) (by omega) (by omega)
      rw [List.head?_append, Option.or_eq_left_of_isSome]
      · exact hrest
      · exact (List.isSome_head? ).2 Nat.toDigits_ne_nil

theorem digits_zero : digits 0 = ['0'] :=
  Nat.toDigits_zero 10

/-! ## Digits behind digits -/

theorem digits_injective {m n : Nat} (h : digits m = digits n) : m = n := by
  rw [← ofDigits_digits m, h, ofDigits_digits]

theorem length_digits_of_lt {d : Nat} (hd : d < 10) : (digits d).length = 1 := by
  rw [digits, Nat.toDigits_of_lt_base hd]
  rfl

/-- One more digit is written behind a positive number. -/
theorem digits_append_digit {n d : Nat} (hn : 0 < n) (hd : d < 10) :
    digits n ++ digits d = digits (10 * n + d) :=
  Nat.toDigits_append_toDigits (by omega) hn hd

/-- A number of more than one digit is written with its last digit behind the others. -/
theorem digits_of_ten_le {n : Nat} (h : 10 ≤ n) :
    digits n = digits (n / 10) ++ digits (n % 10) := by
  rw [digits_append_digit (by omega) (Nat.mod_lt n (by omega)), Nat.div_add_mod]

/-- The digits of a positive number with those of another number behind them are the digits of a
number. -/
theorem digits_append {n : Nat} (hn : 0 < n) (w : Nat) :
    digits n ++ digits w = digits (n * tenPow (digits w).length + w) := by
  induction w using Nat.strongRecOn with
  | _ w ih =>
    rcases Nat.lt_or_ge w 10 with hlt | hge
    · rw [length_digits_of_lt hlt, digits_append_digit hn hlt, Nat.mul_comm 10 n]
      rfl
    · have hlast : w % 10 < 10 := Nat.mod_lt w (by omega)
      have hpos : 0 < n * tenPow (digits (w / 10)).length + w / 10 := by omega
      have hvalue : 10 * (n * tenPow (digits (w / 10)).length + w / 10) + w % 10 =
          n * tenPow ((digits (w / 10)).length + 1) + w := by
        rw [show ∀ k, tenPow (k + 1) = tenPow k * 10 from fun _ => rfl, Nat.mul_add,
          ← Nat.mul_assoc n, Nat.mul_comm _ 10]
        omega
      rw [digits_of_ten_le hge, ← List.append_assoc, ih (w / 10) (by omega),
        digits_append_digit hpos hlast, hvalue, List.length_append, length_digits_of_lt hlast]

/-- The first digits of a positive number are the digits of a positive number. -/
theorem exists_digits_of_append {v : Nat} {ds es : List Char} (hv : 0 < v) (hne : ds ≠ [])
    (h : digits v = ds ++ es) : ∃ n, 0 < n ∧ ds = digits n := by
  induction v using Nat.strongRecOn generalizing es with
  | _ v ih =>
    rcases List.eq_nil_or_concat es with rfl | ⟨es, e, rfl⟩
    · exact ⟨v, hv, by rw [h, List.append_nil]⟩
    · rw [List.concat_eq_append, ← List.append_assoc] at h
      have hlength := congrArg List.length h
      have hpos := List.length_pos_iff.2 hne
      simp only [List.length_append, List.length_singleton] at hlength
      rcases Nat.lt_or_ge v 10 with hlt | hge
      · rw [length_digits_of_lt hlt] at hlength
        omega
      · -- without its last digit, the number is a smaller one
        have hlast := length_digits_of_lt (Nat.mod_lt v (by omega : 0 < 10))
        rw [digits_of_ten_le hge] at h
        exact ih (v / 10) (by omega) (by omega) (List.append_inj_left' h hlast)

/-- Where texts that end in numbers are the same, both parts are, or the number of the one begins in
the text of the other. -/
theorem append_digits_eq_iff {as bs : List Char} {v w : Nat} :
    as ++ digits v = bs ++ digits w ↔
      (as = bs ∧ v = w) ∨
      (∃ n, 0 < n ∧ bs = as ++ digits n ∧ digits v = digits n ++ digits w) ∨
      ∃ n, 0 < n ∧ as = bs ++ digits n ∧ digits w = digits n ++ digits v := by
  -- the part of one number that the other text takes
  have hpart : ∀ {as bs ds : List Char} {v w : Nat}, bs = as ++ ds →
      digits v = ds ++ digits w → (as = bs ∧ v = w) ∨
        ∃ n, 0 < n ∧ bs = as ++ digits n ∧ digits v = digits n ++ digits w := by
    intro as bs ds v w hbs hdigits
    by_cases hds : ds = []
    · subst hds
      exact .inl ⟨by rw [hbs, List.append_nil], digits_injective hdigits⟩
    · have hv : 0 < v := by
        -- 0 has one digit, which leaves none for the other number
        refine Nat.pos_of_ne_zero fun hzero => ?_
        have hlength := congrArg List.length hdigits
        rw [hzero, length_digits_of_lt (by omega), List.length_append] at hlength
        have hpos := List.length_pos_iff.2 hds
        have hpos' := List.length_pos_iff.2 (digits_ne_nil w)
        omega
      obtain ⟨n, hn, rfl⟩ := exists_digits_of_append hv hds hdigits
      exact .inr ⟨n, hn, hbs, hdigits⟩
  constructor
  · intro h
    rcases List.append_eq_append_iff.1 h with ⟨ds, hbs, hv'⟩ | ⟨ds, has, hw'⟩
    · exact (hpart hbs hv').imp_right .inl
    · exact (hpart has hw').imp (fun h => ⟨h.1.symm, h.2.symm⟩) .inr
  · rintro (⟨rfl, rfl⟩ | ⟨n, hn, rfl, hv'⟩ | ⟨n, hn, rfl, hw'⟩)
    · rfl
    · rw [List.append_assoc, hv']
    · rw [List.append_assoc, hw']

/-! ## Digits of a fixed width -/

theorem isDigit_of_mem_padded {width n : Nat} {c : Char} (h : c ∈ padded width n) :
    c.isDigit = true := by
  rcases List.mem_append.1 h with h | h
  · rw [List.eq_of_mem_replicate h]
    rfl
  · exact isDigit_of_mem_digits h

theorem padded_ne_nil (width n : Nat) : padded width n ≠ [] :=
  List.append_ne_nil_of_right_ne_nil _ (digits_ne_nil n)

theorem length_padded {width n : Nat} (hpos : 0 < width) (h : n < tenPow width) :
    (padded width n).length = width := by
  have hle := length_digits_le hpos h
  rw [padded, List.length_append, List.length_replicate]
  omega

theorem ofDigits_padded (width n : Nat) : ofDigits (padded width n) = n := by
  rw [ofDigits_eq, padded, Nat.ofDigitChars_append, Nat.ofDigitChars_replicate_zero, Nat.mul_zero,
    digits, Nat.ofDigitChars_ten_toDigits]

/-! ## Hexadecimal digits -/

/-- Two hexadecimal digits read back, where they stand for less than `16 * 16`. -/
theorem ofDigitsOf_hexDigits {a b : Nat} (ha : a < 16) (hb : b < 16) :
    ofDigitsOf 16 ['0', '0', hexDigit a, hexDigit b] = 16 * a + b := by
  have hall : ∀ a < 16, ∀ b < 16,
      ofDigitsOf 16 ['0', '0', hexDigit a, hexDigit b] = 16 * a + b := by decide
  exact hall a ha b hb

theorem isDigitOf_hexDigit {a : Nat} (ha : a < 16) : isDigitOf 16 (hexDigit a) = true := by
  have hall : ∀ a < 16, isDigitOf 16 (hexDigit a) = true := by decide
  exact hall a ha

end Number
end TaskTable
