import TaskTable.Time.Calendar

/-!
# Dates read back

Every day falls on one date that exists, and that date falls on the day (`Date.toDays_ofDays`).
-/

namespace TaskTable
namespace Time

/-! ## Years -/

theorem daysBefore_succ (year : Int) :
    daysBefore (year + 1) = daysBefore year + 365 + if isLeap year then 1 else 0 := by
  unfold daysBefore
  split
  · next h =>
    simp only [isLeap, Bool.and_eq_true, Bool.or_eq_true, beq_iff_eq, bne_iff_ne] at h
    omega
  · next h =>
    simp only [isLeap, Bool.and_eq_true, Bool.or_eq_true, beq_iff_eq, bne_iff_ne] at h
    omega

/-- A day lies in its year. -/
theorem yearOf_spec (day : Int) :
    daysBefore (yearOf day) ≤ day ∧ day < daysBefore (yearOf day + 1) := by
  -- the mean year gives an estimate that is off by one year at most
  have hlow : daysBefore (400 * day / 146097 - 1) ≤ day := by
    unfold daysBefore
    omega
  have hhigh : day < daysBefore (400 * day / 146097 + 1 + 1) := by
    unfold daysBefore
    omega
  unfold yearOf
  simp only
  split
  · next h => exact ⟨h, hhigh⟩
  split
  · next hnext h => exact ⟨h, Int.not_le.1 hnext⟩
  · next hnext h =>
    rw [Int.sub_add_cancel]
    exact ⟨hlow, Int.not_le.1 h⟩

/-! ## Months -/

/-- A day of a year lies in one of its months, behind the months before it. -/
theorem splitMonth_spec (months : List Nat) {day : Nat} (h : day < months.foldr (· + ·) 0) :
    (splitMonth months day).2 < months.getD (splitMonth months day).1 0 ∧
      (months.take (splitMonth months day).1).foldr (· + ·) 0 + (splitMonth months day).2 =
        day := by
  induction months generalizing day with
  | nil => exact absurd h (Nat.not_lt_zero _)
  | cons length rest ih =>
    rw [List.foldr_cons] at h
    rw [splitMonth]
    split
    · next hlt => exact ⟨hlt, Nat.zero_add _⟩
    · next hge =>
      have hlater : day - length < rest.foldr (· + ·) 0 := by omega
      obtain ⟨hmonth, hsum⟩ := ih hlater
      refine ⟨hmonth, ?_⟩
      simp only [List.take_succ_cons, List.foldr_cons]
      omega

theorem sum_monthLengths (leap : Bool) :
    (monthLengths leap).foldr (· + ·) 0 = 365 + if leap then 1 else 0 := by
  cases leap <;> rfl

/-! ## Dates -/

namespace Date

/-- The month and the day of the month that a day falls on, both counted from 0. -/
def monthAndDay (days : Int) : Nat × Nat :=
  splitMonth (monthLengths (isLeap (yearOf days))) (days - daysBefore (yearOf days)).toNat

theorem ofDays_eq (days : Int) :
    ofDays days = ⟨yearOf days, (monthAndDay days).1 + 1, (monthAndDay days).2 + 1⟩ :=
  rfl

/-- The months of the year that a day falls into hold the day. -/
theorem monthAndDay_spec (days : Int) :
    (monthAndDay days).2 < (monthLengths (isLeap (yearOf days))).getD (monthAndDay days).1 0 ∧
      daysBefore (yearOf days) +
        (((monthLengths (isLeap (yearOf days))).take (monthAndDay days).1).foldr (· + ·) 0 : Nat) +
          (monthAndDay days).2 = days := by
  obtain ⟨hlow, hhigh⟩ := yearOf_spec days
  rw [daysBefore_succ] at hhigh
  have hlt : (days - daysBefore (yearOf days)).toNat <
      (monthLengths (isLeap (yearOf days))).foldr (· + ·) 0 := by
    rw [sum_monthLengths]
    split at hhigh <;> simp_all <;> omega
  obtain ⟨hmonth, hsum⟩ := splitMonth_spec _ hlt
  exact ⟨hmonth, by unfold monthAndDay; omega⟩

theorem isValid_ofDays (days : Int) : (ofDays days).isValid = true := by
  rw [isValid, Bool.and_eq_true, Bool.and_eq_true]
  exact ⟨⟨decide_eq_true (Nat.succ_pos _), decide_eq_true (Nat.succ_pos _)⟩,
    decide_eq_true (monthAndDay_spec days).1⟩

/-- The date that a day falls on falls on that day. -/
theorem toDays_ofDays (days : Int) : (ofDays days).toDays = days := by
  have hsum := (monthAndDay_spec days).2
  simp only [toDays, ofDays_eq, Nat.add_sub_cancel]
  omega

/-- A month has at most two digits. -/
theorem month_ofDays_le (days : Int) : (ofDays days).month ≤ 12 := by
  have hvalid := isValid_ofDays days
  simp only [isValid, Bool.and_eq_true, decide_eq_true_eq] at hvalid
  have hlength : ∀ leap, (monthLengths leap).length = 12 := by decide
  rcases Nat.lt_or_ge 12 (ofDays days).month with hlt | hle
  · -- there is no such month, so it has no days
    rw [List.getD_eq_getElem?_getD, List.getElem?_eq_none (by rw [hlength]; omega)] at hvalid
    simp only [Option.getD_none] at hvalid
    omega
  · exact hle

/-- A day of a month has at most two digits. -/
theorem day_ofDays_le (days : Int) : (ofDays days).day ≤ 31 := by
  have hvalid := isValid_ofDays days
  simp only [isValid, Bool.and_eq_true, decide_eq_true_eq] at hvalid
  have hlength : ∀ leap, ∀ month < 13, (monthLengths leap).getD (month - 1) 0 ≤ 31 := by decide
  have := hlength (isLeap (ofDays days).year) (ofDays days).month
    (Nat.lt_succ_of_le (month_ofDays_le days))
  omega

end Date
end Time
end TaskTable
