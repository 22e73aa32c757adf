import TaskTable.Proofs.Grammar.Runs
import TaskTable.Proofs.Number.Digits
import TaskTable.Proofs.Text.Blank
import TaskTable.Proofs.Time.Calendar
import TaskTable.Time.Instant

/-!
# Instants read back

The written form of an instant reads as the instant (`Instant.ofText?_toText`), if it lies in the
years that are written and a leap second in it is the last second of its minute.
-/

namespace TaskTable
namespace Instant

open Grammar (Stops stops_cons append_ne_cons takeWhile_of_stops dropWhile_of_stops)
open Text (trimStart_of_stops)

/-! ## Digits -/

theorem not_isBlank_of_isDigit {c : Char} (h : c.isDigit = true) : Text.isBlank c = false := by
  simp only [Char.isDigit, Bool.and_eq_true, decide_eq_true_eq, ge_iff_le, UInt32.le_iff_toNat_le]
    at h
  have hlow : 48 ≤ c.toNat := h.1
  have hhigh : c.toNat ≤ 57 := h.2
  simp only [Text.isBlank, Bool.or_eq_false_iff, Bool.and_eq_false_iff, decide_eq_false_iff_not,
    beq_eq_false_iff_ne]
  omega

/-- Digits that stand at the head of a text keep it from being trimmed. -/
theorem trimStart_digits {ds : List Char} (hne : ds ≠ []) (hdigits : ∀ c ∈ ds, c.isDigit = true)
    (rest : List Char) : Text.trimStart (ds ++ rest) = ds ++ rest := by
  cases ds with
  | nil => exact absurd rfl hne
  | cons d ds =>
    exact trimStart_of_stops (stops_cons (not_isBlank_of_isDigit (hdigits d List.mem_cons_self)) _)

/-- A run of digits is read whole, if it is not too long and no further digit follows. -/
theorem readNumber_digits (most : Nat) {ds rest : List Char} (hne : ds ≠ [])
    (hdigits : ∀ c ∈ ds, c.isDigit = true) (hmost : ds.length ≤ most)
    (hrest : Stops Char.isDigit rest) :
    readNumber most (ds ++ rest) = some (Number.ofDigits ds, rest) := by
  have hstops : Stops Char.isDigit (rest.take (most - ds.length)) := by
    intro c hc
    refine hrest c ?_
    cases rest with
    | nil => simp at hc
    | cons d rest =>
      cases hk : most - ds.length with
      | zero => simp [hk] at hc
      | succ k => simpa [hk] using hc
  have htake : ((ds ++ rest).take most).takeWhile Char.isDigit = ds := by
    rw [List.take_append, List.take_of_length_le hmost]
    exact takeWhile_of_stops hdigits hstops
  have hempty : ds.isEmpty = false := by
    simpa using hne
  simp only [readNumber, htake, hempty, Bool.false_eq_true, if_false, List.drop_left]

/-- A number that is written with two digits is read as the number. -/
theorem readField_padded {n : Nat} (h : n < 100) {rest : List Char}
    (hrest : Stops Char.isDigit rest) :
    readField 2 (Number.padded 2 n ++ rest) = some (n, rest) := by
  have hdigits : ∀ c ∈ Number.padded 2 n, c.isDigit = true := fun c => Number.isDigit_of_mem_padded
  rw [readField, trimStart_digits (Number.padded_ne_nil 2 n) hdigits,
    readNumber_digits 2 (Number.padded_ne_nil 2 n) hdigits
      (Nat.le_of_eq (Number.length_padded (by decide) h)) hrest, Number.ofDigits_padded]

theorem skipMark_cons {c : Char} (h : Text.isBlank c = false) (rest : List Char) :
    skipMark c (c :: rest) = some rest := by
  rw [skipMark, trimStart_of_stops (stops_cons h rest)]
  exact if_pos rfl

/-! ## Years -/

theorem readYear_yearText (year : Int) (rest : List Char) :
    readYear (yearText year ++ '-' :: rest) = some (year, '-' :: rest) := by
  have hstops : Stops Char.isDigit ('-' :: rest) := stops_cons rfl rest
  have hdigits : ∀ n, ∀ c ∈ Number.padded 4 n, c.isDigit = true :=
    fun n c => Number.isDigit_of_mem_padded
  unfold yearText
  split
  · next h =>
    -- four digits without a sign
    have hread := readNumber_digits 4 (Number.padded_ne_nil 4 year.toNat)
      (hdigits year.toNat) (Nat.le_of_eq (Number.length_padded (by decide)
        (show year.toNat < 10000 by omega))) hstops
    rw [readYear, trimStart_digits (Number.padded_ne_nil 4 _) (hdigits _)]
    have hsign : ∀ {c : Char} {more : List Char}, c.isDigit = false →
        Number.padded 4 year.toNat ++ '-' :: rest ≠ c :: more :=
      fun hc => append_ne_cons (Number.padded_ne_nil 4 _) (hdigits year.toNat) hc _ _
    split
    · next heq => exact absurd heq (hsign rfl)
    · next heq => exact absurd heq (hsign rfl)
    · simp only [hread, Number.ofDigits_padded, Option.map_some]
      rw [Int.toNat_of_nonneg h.1]
  · have hread := readNumber_digits (Number.padded 4 year.natAbs ++ '-' :: rest).length
      (Number.padded_ne_nil 4 year.natAbs) (hdigits year.natAbs)
      (by rw [List.length_append]; omega) hstops
    rw [Number.ofDigits_padded] at hread
    split
    · rw [List.cons_append, readYear, trimStart_of_stops (stops_cons rfl _)]
      simp only [hread, Option.map_some]
      congr
      omega
    · rw [List.cons_append, readYear, trimStart_of_stops (stops_cons rfl _)]
      simp only [hread, Option.map_some]
      congr
      omega

/-! ## Parts of a second -/

theorem readFraction_padded {width n : Nat} (hpos : 0 < width) (hwidth : width ≤ 9)
    (h : n < Number.tenPow width) :
    readFraction ('.' :: (Number.padded width n ++ ['Z'])) =
      some (n * Number.tenPow (9 - width), ['Z']) := by
  have hdigits : ∀ c ∈ Number.padded width n, c.isDigit = true :=
    fun c => Number.isDigit_of_mem_padded
  have hstops : Stops Char.isDigit ['Z'] := stops_cons rfl []
  have hlength := Number.length_padded hpos h
  have hempty : (Number.padded width n).isEmpty = false := by
    simpa using Number.padded_ne_nil width n
  have hkept : (Number.padded width n).take 9 = Number.padded width n :=
    List.take_of_length_le (by omega)
  simp only [readFraction, takeWhile_of_stops hdigits hstops, dropWhile_of_stops hdigits hstops,
    hempty, hkept, hlength, Number.ofDigits_padded, Bool.false_eq_true, if_false]

theorem readFraction_fractionText {nanos : Nat} (h : nanos < nanosPerSecond) :
    readFraction (fractionText nanos ++ ['Z']) = some (nanos, ['Z']) := by
  unfold nanosPerSecond at h
  unfold fractionText
  split
  · next hzero =>
    rw [hzero]
    rfl
  split
  · rw [List.cons_append, readFraction_padded (by decide) (by decide)
      (show nanos / 1000000 < 1000 by omega)]
    congr
    show nanos / 1000000 * 1000000 = nanos
    omega
  split
  · rw [List.cons_append, readFraction_padded (by decide) (by decide)
      (show nanos / 1000 < 1000000 by omega)]
    congr
    show nanos / 1000 * 1000 = nanos
    omega
  · rw [List.cons_append, readFraction_padded (by decide) (by decide)
      (show nanos < 1000000000 by omega)]
    congr
    show nanos * 1 = nanos
    omega

theorem fractionText_stops (nanos : Nat) : Stops Char.isDigit (fractionText nanos ++ ['Z']) := by
  unfold fractionText
  repeat' split
  all_goals exact stops_cons rfl _

/-! ## Instants -/

/-- Whether the instant is one that its written form keeps: it lies in the years that are read, and
a leap second is the last second of its minute. -/
def isExact (t : Instant) : Bool :=
  isWithin (t.second / secondsPerDay + Time.epochDay) && t.nanos < 2 * nanosPerSecond &&
    (!t.isLeap || t.ofDay % 60 == 59)

theorem read?_chars {t : Instant} (h : t.isExact = true) : read? t.chars = some t := by
  simp only [isExact, Bool.and_eq_true, Bool.or_eq_true, decide_eq_true_eq, beq_iff_eq,
    Bool.not_eq_true'] at h
  obtain ⟨⟨hwithin, hnanos⟩, hleap⟩ := h
  have hofDay : t.ofDay < 86400 := by
    unfold ofDay secondsPerDay
    omega
  have hsecond : t.second = t.second / secondsPerDay * secondsPerDay + t.ofDay := by
    unfold ofDay secondsPerDay
    omega
  generalize hday : t.second / secondsPerDay + Time.epochDay = day at hwithin
  have hdate : (⟨(Time.Date.ofDays day).year, (Time.Date.ofDays day).month,
      (Time.Date.ofDays day).day⟩ : Time.Date) = Time.Date.ofDays day := rfl
  have hvalid := Time.Date.isValid_ofDays day
  have htoDays := Time.Date.toDays_ofDays day
  -- each part in its place
  have hfield : ∀ {n : Nat}, n < 100 → ∀ {c : Char}, c.isDigit = false → ∀ rest,
      readField 2 (Number.padded 2 n ++ c :: rest) = some (n, c :: rest) :=
    fun hn _ hc rest => readField_padded hn (stops_cons hc rest)
  have hmonth := hfield (c := '-')
    (Nat.lt_of_le_of_lt (Time.Date.month_ofDays_le day) (by decide)) rfl
  have hdayOf := hfield (c := 'T')
    (Nat.lt_of_le_of_lt (Time.Date.day_ofDays_le day) (by decide)) rfl
  have hhour := hfield (n := t.ofDay / 3600) (c := ':') (by omega) rfl
  have hminute := hfield (n := t.ofDay / 60 % 60) (c := ':') (by omega) rfl
  have hclock := readField_padded (n := t.ofDay % 60 + if t.isLeap then 1 else 0)
    (by split <;> omega) (fractionText_stops (t.nanos % nanosPerSecond))
  have hpart : t.nanos % nanosPerSecond < nanosPerSecond := Nat.mod_lt _ (by decide)
  have hfraction := readFraction_fractionText hpart
  have hdash := skipMark_cons (c := '-') rfl
  have hcolon := skipMark_cons (c := ':') rfl
  have hoffset : readOffset (Text.trimStart ['Z']) = some (0, []) := rfl
  have hempty : (Text.trimStart []).isEmpty = true := rfl
  have hbind : ∀ {α β : Type} (a : α) (f : α → Option β), (some a >>= f) = f a := fun _ _ => rfl
  -- the text is read part by part
  unfold chars read?
  dsimp only
  simp only [hday, List.append_assoc, List.cons_append]
  rw [readYear_yearText, hbind]
  dsimp only
  rw [hdash, hbind, hmonth, hbind]
  dsimp only
  rw [hdash, hbind, hdayOf, hbind]
  dsimp only
  change (some _ >>= _) = _
  rw [hbind, hhour, hbind]
  dsimp only
  rw [hcolon, hbind, hminute, hbind]
  dsimp only
  rw [hcolon, hbind, hclock, hbind]
  dsimp only
  rw [hfraction, hbind]
  dsimp only
  rw [hoffset, hbind]
  dsimp only
  rw [hdate, hvalid, htoDays, hempty]
  -- the parts make up the time of the day, and a leap second is the sixtieth of its minute
  have hkind : t.isLeap = false ∧ t.nanos < 1000000000 ∨
      t.isLeap = true ∧ 1000000000 ≤ t.nanos ∧ t.ofDay % 60 = 59 := by
    cases hl : t.isLeap with
    | false => exact .inl ⟨rfl, Nat.not_le.1 (of_decide_eq_false hl)⟩
    | true => exact .inr ⟨rfl, of_decide_eq_true hl, by simpa [hl] using hleap⟩
  have hsum : ((t.ofDay / 3600 : Nat) : Int) * 3600 + ((t.ofDay / 60 % 60 : Nat) : Int) * 60 +
      (min (t.ofDay % 60 + if t.isLeap = true then 1 else 0) 59 : Nat) - 0 = t.ofDay := by
    obtain ⟨hl, _⟩ | ⟨hl, _, hlast⟩ := hkind
    · rw [hl, if_neg (by decide)]
      omega
    · rw [hl, if_pos rfl]
      omega
  have hwhole : (t.ofDay : Int) / secondsPerDay = 0 := by
    unfold secondsPerDay
    omega
  have hcarry : (t.nanos % nanosPerSecond +
      if (t.ofDay % 60 + if t.isLeap = true then 1 else 0) = 60 then nanosPerSecond else 0) =
        t.nanos := by
    unfold nanosPerSecond at *
    obtain ⟨hl, hlt⟩ | ⟨hl, hge, hlast⟩ := hkind
    · rw [hl, if_neg (by simp; omega)]
      omega
    · rw [hl, if_pos (by simp; omega)]
      omega
  rw [hsum, hwhole, Int.add_zero, hwithin, hcarry, ← hday, Int.add_sub_cancel, ← hsecond]
  refine if_pos ?_
  simp only [Bool.and_eq_true, decide_eq_true_eq]
  refine ⟨⟨⟨⟨⟨⟨⟨trivial, trivial⟩, trivial⟩, ?_⟩, ?_⟩, ?_⟩, by decide⟩, trivial⟩
  · omega
  · omega
  · split <;> omega

/-- The written form of an exact instant is read as the instant. -/
theorem ofText?_toText {t : Instant} (h : t.isExact = true) : ofText? t.toText = some t := by
  rw [ofText?, toText, String.toList_ofList, read?_chars h]

end Instant
end TaskTable
