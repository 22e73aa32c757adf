import TaskTable.Json.Text
import TaskTable.Proofs.Grammar.Runs
import TaskTable.Proofs.Number.Digits

/-!
# JSON read back

The compact form of a value whose numbers are whole and of at most 64 bits reads as the value,
whatever texts stand in it, up to the levels of nesting that a reader takes (`Draft.upTo`). What is
nested deeper is faulty (`Draft.ofText?_toText`).
-/

namespace TaskTable
namespace Json

open Grammar (Stops stops_nil stops_cons append_ne_cons takeWhile_of_stops dropWhile_of_stops)

/-! ## Strings -/

theorem readUnit_control {c : Char} (h : c.toNat < 0x20) (rest : List Char) :
    readUnit ('0' :: '0' :: Number.hexDigit (c.toNat / 16) :: Number.hexDigit (c.toNat % 16) ::
      rest) = some (c.toNat, rest) := by
  have hhigh : c.toNat / 16 < 16 := by omega
  have hlow : c.toNat % 16 < 16 := by omega
  have hdigits : ['0', '0', Number.hexDigit (c.toNat / 16), Number.hexDigit (c.toNat % 16)].all
      (Number.isDigitOf 16) = true := by
    simp only [List.all_cons, Number.isDigitOf_hexDigit hhigh, Number.isDigitOf_hexDigit hlow]
    decide
  have hvalue := Number.ofDigitsOf_hexDigits hhigh hlow
  have hsplit : 16 * (c.toNat / 16) + c.toNat % 16 = c.toNat := Nat.div_add_mod _ _
  unfold readUnit
  simp only [List.take_succ_cons, List.take_zero, List.drop_succ_cons, List.drop_zero]
  rw [if_pos ⟨rfl, hdigits⟩, hvalue, hsplit]

/-- A written character is read as it is. -/
theorem readChars_escape (c : Char) (fuel : Nat) (rest : List Char) :
    readChars (fuel + 1) (escape c ++ rest) =
      (readChars fuel rest).map fun r => (r.1.map (c :: ·), r.2) := by
  have hescaped : ∀ {s : List Char}, readEscape s = some (some c, rest) →
      readChars (fuel + 1) ('\\' :: s) =
        (readChars fuel rest).map fun r => (r.1.map (c :: ·), r.2) := by
    intro s hs
    rw [readChars, if_neg (by decide), if_pos rfl, hs]
    simp only [Option.bind_eq_bind, Option.bind_some]
    cases readChars fuel rest <;> rfl
  unfold escape
  -- the characters that have an escape of their own
  split
  · next h => subst h; exact hescaped rfl
  split
  · next h => subst h; exact hescaped rfl
  split
  · next h => subst h; exact hescaped rfl
  split
  · next h => subst h; exact hescaped rfl
  split
  · next h => subst h; exact hescaped rfl
  split
  · next h => subst h; exact hescaped rfl
  split
  · next h => subst h; exact hescaped rfl
  split
  · -- any other control character is written as its unit, which is no half of a pair
    next hcontrol =>
    have hplain : isLead c.toNat = false ∧ isTrail c.toNat = false := by
      simp [isLead, isTrail]
      omega
    show readChars (fuel + 1) ('\\' :: 'u' :: '0' :: '0' :: Number.hexDigit (c.toNat / 16) ::
      Number.hexDigit (c.toNat % 16) :: rest) = _
    refine hescaped ?_
    rw [readEscape, readUnit_control hcontrol]
    simp only [hplain.1, hplain.2, Option.bind_eq_bind, Option.bind_some, Bool.false_eq_true,
      if_false, Char.ofNat_toNat]
    rfl
  · -- and all others stand for themselves
    next hquote hbackslash _ _ _ _ _ hcontrol =>
    show readChars (fuel + 1) (c :: rest) = _
    rw [readChars, if_neg hquote, if_neg hbackslash, if_neg hcontrol]
    cases readChars fuel rest <;> rfl

theorem readChars_flatMap (cs : List Char) {fuel : Nat} (h : cs.length < fuel)
    (rest : List Char) :
    readChars fuel (cs.flatMap escape ++ '"' :: rest) = some (some cs, rest) := by
  induction cs generalizing fuel with
  | nil =>
    obtain ⟨fuel, rfl⟩ : ∃ k, fuel = k + 1 := ⟨fuel - 1, by simp at h; omega⟩
    rfl
  | cons c cs ih =>
    obtain ⟨fuel, rfl⟩ : ∃ k, fuel = k + 1 := ⟨fuel - 1, by simp at h; omega⟩
    have hrest : cs.length < fuel := by simpa using h
    rw [List.flatMap_cons, List.append_assoc, readChars_escape, ih hrest]
    rfl

theorem length_escape_pos (c : Char) : 0 < (escape c).length := by
  unfold escape
  repeat' split
  all_goals simp

theorem length_le_length_quoted (s : String) : s.toList.length + 2 ≤ (quoted s).length := by
  have hescaped : ∀ cs : List Char, cs.length ≤ (cs.flatMap escape).length := by
    intro cs
    induction cs with
    | nil => exact Nat.le_refl 0
    | cons c cs ih =>
      have hpos := length_escape_pos c
      rw [List.flatMap_cons, List.length_append, List.length_cons]
      omega
  have hchars := hescaped s.toList
  simp only [quoted, List.length_cons, List.length_append, List.length_nil]
  omega

/-- A quoted string is read as the string, once its opening quote has been. -/
theorem readString_quoted (s : String) {fuel : Nat} (h : (quoted s).length ≤ fuel)
    (rest : List Char) :
    ∃ body, quoted s ++ rest = '"' :: body ∧ readString fuel body = some (some s, rest) := by
  have hlength := length_le_length_quoted s
  refine ⟨s.toList.flatMap escape ++ '"' :: rest, by simp [quoted], ?_⟩
  rw [readString, readChars_flatMap s.toList (by omega)]
  simp

/-! ## Numbers -/

/-- A text that no number reaches into. -/
abbrev Ends (rest : List Char) : Prop :=
  Stops (fun c => c.isDigit || ['.', 'e', 'E'].contains c) rest

theorem Ends.stops_digits {rest : List Char} (h : Ends rest) : Stops Char.isDigit rest :=
  fun c hc => ((Bool.or_eq_false_iff).1 (h c hc)).1

theorem readPlaces_ends {rest : List Char} (h : Ends rest) :
    readPlaces rest = some ([], rest) := by
  unfold readPlaces
  split
  · next c => exact absurd (h '.' rfl) (by decide)
  · rfl

theorem readExponent_ends {rest : List Char} (h : Ends rest) :
    readExponent rest = some (none, rest) := by
  unfold readExponent
  split
  · rfl
  · next e more =>
    have hmark := h e rfl
    have hne : ¬ (e = 'e' ∨ e = 'E') := by
      rintro (rfl | rfl) <;> exact absurd hmark (by decide)
    rw [if_neg hne]

/-- The digits of a number are read whole, whatever the sign before them. -/
theorem readNumber_digits (n : Nat) {rest : List Char} (h : Ends rest) :
    readNumber (Number.digits n ++ rest) =
        some (Draft.ofNumber false (Number.digits n) [] none, rest) ∧
      readNumber ('-' :: (Number.digits n ++ rest)) =
        some (Draft.ofNumber true (Number.digits n) [] none, rest) := by
  have hdigits : ∀ c ∈ Number.digits n, c.isDigit = true := fun c => Number.isDigit_of_mem_digits
  have htake := takeWhile_of_stops hdigits h.stops_digits
  have hdrop := dropWhile_of_stops hdigits h.stops_digits
  -- there is a digit, and no zero in front of others
  have hzeros : ((Number.digits n).isEmpty ||
      ((Number.digits n).length > 1 && (Number.digits n).head? == some '0')) = false := by
    rcases Nat.eq_zero_or_pos n with rfl | hpos
    · rw [Number.digits_zero]
      rfl
    · have hempty : (Number.digits n).isEmpty = false := by
        simpa using Number.digits_ne_nil n
      have hhead : ((Number.digits n).head? == some '0') = false :=
        beq_eq_false_iff_ne.2 (Number.head_digits hpos)
      rw [hempty, hhead, Bool.and_false, Bool.or_false]
  have hminus : ∀ more, Number.digits n ++ rest ≠ '-' :: more :=
    append_ne_cons (Number.digits_ne_nil n) hdigits rfl rest
  constructor
  · unfold readNumber
    split
    next hsign =>
    split at hsign
    · next hmore => exact absurd hmore (hminus _)
    · cases hsign
      simp only [htake, hdrop, hzeros, readPlaces_ends h, readExponent_ends h,
        Bool.false_eq_true, if_false, Option.bind_eq_bind, Option.bind_some]
      rfl
  · simp only [readNumber, htake, hdrop, hzeros, readPlaces_ends h, readExponent_ends h,
      Bool.false_eq_true, if_false, Option.bind_eq_bind, Option.bind_some]
    rfl

/-- A whole number of at most 64 bits is read as it is. -/
theorem readNumber_intText {n : Int} (hlow : -(Number.twoPow 63 : Int) ≤ n)
    (hhigh : n < Number.twoPow 64) {rest : List Char} (h : Ends rest) :
    readNumber (intText n ++ rest) = some (.int n, rest) := by
  obtain ⟨hplain, hnegative⟩ := readNumber_digits n.natAbs h
  have hvalue := Number.ofDigits_digits n.natAbs
  have hsigned : (Number.twoPow 63 : Int) = 9223372036854775808 := rfl
  have hunsigned : (Number.twoPow 64 : Int) = 18446744073709551616 := rfl
  unfold intText
  rcases Int.lt_or_le n 0 with hneg | hpos
  · -- the least number has no positive counterpart, but its digits are read all the same
    rw [if_pos hneg, List.singleton_append, List.cons_append, hnegative, Draft.ofNumber]
    simp only [hvalue]
    rw [if_neg (by simp), if_pos (by simp; omega)]
    congr
    omega
  · rw [if_neg (by omega), List.nil_append, hplain, Draft.ofNumber]
    simp only [hvalue]
    rw [if_pos (by simp; omega)]
    congr
    omega

/-! ## Values -/

mutual

/-- Whether the value is one that its compact form keeps: every number is whole and of at most 64
bits, and no more than `levels` arrays and objects stand in one another. -/
def isExact (levels : Nat) : Json → Bool
  | null | bool _ | str _ => true
  | int n => -(Number.twoPow 63 : Int) ≤ n && n < Number.twoPow 64
  | real _ => false
  | arr items => 0 < levels && areExact (levels - 1) items
  | obj fields => 0 < levels && areExactFields (levels - 1) fields

/-- Whether every value of a list is one that its compact form keeps. -/
def areExact (levels : Nat) : List Json → Bool
  | [] => true
  | a :: as => isExact levels a && areExact levels as

/-- Whether every value of a list of fields is one that its compact form keeps. -/
def areExactFields (levels : Nat) : List (String × Json) → Bool
  | [] => true
  | (_, a) :: as => isExact levels a && areExactFields levels as

end

mutual

/-- Whether every number in the value is whole and of at most 64 bits. -/
def isWhole : Json → Bool
  | null | bool _ | str _ => true
  | int n => -(Number.twoPow 63 : Int) ≤ n && n < Number.twoPow 64
  | real _ => false
  | arr items => areWhole items
  | obj fields => areWholeFields fields

/-- Whether every number in a list of values is whole and of at most 64 bits. -/
def areWhole : List Json → Bool
  | [] => true
  | a :: as => isWhole a && areWhole as

/-- Whether every number in a list of fields is whole and of at most 64 bits. -/
def areWholeFields : List (String × Json) → Bool
  | [] => true
  | (_, a) :: as => isWhole a && areWholeFields as

end

mutual

/-- How many arrays and objects stand in one another at most. -/
def depth : Json → Nat
  | null | bool _ | int _ | real _ | str _ => 0
  | arr items => depthOfItems items + 1
  | obj fields => depthOfFields fields + 1

/-- The greatest depth in a list of values. -/
def depthOfItems : List Json → Nat
  | [] => 0
  | a :: as => max (depth a) (depthOfItems as)

/-- The greatest depth in a list of fields. -/
def depthOfFields : List (String × Json) → Nat
  | [] => 0
  | (_, a) :: as => max (depth a) (depthOfFields as)

end

theorem depthOfFields_le_iff {n : Nat} {fields : List (String × Json)} :
    depthOfFields fields ≤ n ↔ ∀ e ∈ fields, e.2.depth ≤ n := by
  induction fields with
  | nil => simp [depthOfFields]
  | cons e fields ih => rw [depthOfFields, Nat.max_le, ih, List.forall_mem_cons]

mutual

/-- What a compact form keeps are whole numbers under few levels. -/
theorem isExact_iff (levels : Nat) : (j : Json) →
    (j.isExact levels = true ↔ j.isWhole = true ∧ j.depth ≤ levels)
  | .null | .bool _ | .int _ | .real _ | .str _ => by simp [isExact, isWhole, depth]
  | .arr items => by
    have hlevels : depthOfItems items + 1 ≤ levels ↔
        0 < levels ∧ depthOfItems items ≤ levels - 1 := by omega
    rw [isExact, Bool.and_eq_true, decide_eq_true_eq, areExact_iff (levels - 1) items, isWhole,
      depth, hlevels]
    exact and_left_comm
  | .obj fields => by
    have hlevels : depthOfFields fields + 1 ≤ levels ↔
        0 < levels ∧ depthOfFields fields ≤ levels - 1 := by omega
    rw [isExact, Bool.and_eq_true, decide_eq_true_eq, areExactFields_iff (levels - 1) fields,
      isWhole, depth, hlevels]
    exact and_left_comm

theorem areExact_iff (levels : Nat) : (as : List Json) →
    (areExact levels as = true ↔ areWhole as = true ∧ depthOfItems as ≤ levels)
  | [] => by simp [areExact, areWhole, depthOfItems]
  | a :: as => by
    rw [areExact, areWhole, depthOfItems, Bool.and_eq_true, Bool.and_eq_true, Nat.max_le,
      isExact_iff levels a, areExact_iff levels as]
    exact and_and_and_comm

theorem areExactFields_iff (levels : Nat) : (es : List (String × Json)) →
    (areExactFields levels es = true ↔ areWholeFields es = true ∧ depthOfFields es ≤ levels)
  | [] => by simp [areExactFields, areWholeFields, depthOfFields]
  | (_, a) :: es => by
    rw [areExactFields, areWholeFields, depthOfFields, Bool.and_eq_true, Bool.and_eq_true,
      Nat.max_le, isExact_iff levels a, areExactFields_iff levels es]
    exact and_and_and_comm

end

/-! ## What is read of a value -/

namespace Draft

mutual

/-- The value as it is read by who follows `levels` levels of nesting: what is nested deeper is
faulty. -/
def upTo (levels : Nat) : Json → Draft
  | .null => null
  | .bool b => bool b
  | .int n => int n
  | .real x => real x
  | .str s => str s
  | .arr items => if levels = 0 then faulty else arr (upToItems (levels - 1) items)
  | .obj fields => if levels = 0 then faulty else obj (upToFields (levels - 1) fields)

/-- Every value of a list as it is read. -/
def upToItems (levels : Nat) : List Json → List Draft
  | [] => []
  | a :: as => upTo levels a :: upToItems levels as

/-- Every value of a list of fields as it is read. -/
def upToFields (levels : Nat) : List (String × Json) → List (String × Draft)
  | [] => []
  | (k, a) :: as => (k, upTo levels a) :: upToFields levels as

end

theorem upTo_obj (levels : Nat) (es : List (String × Json)) :
    upTo (levels + 1) (.obj es) = obj (es.map fun e => (e.1, upTo levels e.2)) := by
  have hfields : ∀ es, upToFields levels es = es.map fun e => (e.1, upTo levels e.2) := by
    intro es
    induction es with
    | nil => rfl
    | cons e es ih => rw [upToFields, ih, List.map_cons]
  rw [upTo, if_neg (Nat.succ_ne_zero levels), Nat.add_sub_cancel, hfields]

mutual

/-- With enough levels the value is read as it is. -/
theorem upTo_of_depth_le (levels : Nat) : (j : Json) → j.depth ≤ levels →
    upTo levels j = ofJson j
  | .null, _ | .bool _, _ | .int _, _ | .real _, _ | .str _, _ => rfl
  | .arr items, h => by
    rw [depth] at h
    rw [upTo, if_neg (by omega), upToItems_of_depth_le (levels - 1) items (by omega), ofJson]
  | .obj fields, h => by
    rw [depth] at h
    rw [upTo, if_neg (by omega), upToFields_of_depth_le (levels - 1) fields (by omega), ofJson]

theorem upToItems_of_depth_le (levels : Nat) : (as : List Json) → depthOfItems as ≤ levels →
    upToItems levels as = ofItems as
  | [], _ => rfl
  | a :: as, h => by
    rw [depthOfItems, Nat.max_le] at h
    rw [upToItems, upTo_of_depth_le levels a h.1, upToItems_of_depth_le levels as h.2, ofItems]

theorem upToFields_of_depth_le (levels : Nat) : (es : List (String × Json)) →
    depthOfFields es ≤ levels → upToFields levels es = ofFields es
  | [], _ => rfl
  | (_, a) :: es, h => by
    rw [depthOfFields, Nat.max_le] at h
    rw [upToFields, upTo_of_depth_le levels a h.1, upToFields_of_depth_le levels es h.2, ofFields]

end

mutual

/-- With too few levels no value is read. -/
theorem toJson?_upTo_of_lt (levels : Nat) : (j : Json) → levels < j.depth →
    (upTo levels j).toJson? = none
  | .null, h | .bool _, h | .int _, h | .real _, h | .str _, h => absurd h (Nat.not_lt_zero _)
  | .arr items, h => by
    rw [depth] at h
    rw [upTo]
    split
    · rfl
    · rw [toJson?, toItems?_upToItems_of_lt (levels - 1) items (by omega), Option.map_none]
  | .obj fields, h => by
    rw [depth] at h
    rw [upTo]
    split
    · rfl
    · rw [toJson?, toFields?_upToFields_of_lt (levels - 1) fields (by omega), Option.map_none]

theorem toItems?_upToItems_of_lt (levels : Nat) : (as : List Json) → levels < depthOfItems as →
    toItems? (upToItems levels as) = none
  | [], h => absurd h (Nat.not_lt_zero _)
  | a :: as, h => by
    rw [depthOfItems] at h
    rw [upToItems, toItems?]
    rcases (show levels < a.depth ∨ levels < depthOfItems as by omega) with h | h
    · rw [toJson?_upTo_of_lt levels a h]
      rfl
    · rw [toItems?_upToItems_of_lt levels as h]
      cases (upTo levels a).toJson? <;> rfl

theorem toFields?_upToFields_of_lt (levels : Nat) : (es : List (String × Json)) →
    levels < depthOfFields es → toFields? (upToFields levels es) = none
  | [], h => absurd h (Nat.not_lt_zero _)
  | (_, a) :: es, h => by
    rw [depthOfFields] at h
    rw [upToFields, toFields?]
    rcases (show levels < a.depth ∨ levels < depthOfFields es by omega) with h | h
    · rw [toJson?_upTo_of_lt levels a h]
      rfl
    · rw [toFields?_upToFields_of_lt levels es h]
      cases (upTo levels a).toJson? <;> rfl

end

end Draft

/-! ## What a value begins with -/

/-- A character that a value begins with: neither a blank nor a closing bracket. -/
abbrev opens (c : Char) : Bool :=
  !([' ', '\n', '\t', '\r', ']', '\x7d'].contains c)

theorem skipBlanks_cons {c : Char} (h : [' ', '\n', '\t', '\r'].contains c = false)
    (rest : List Char) : skipBlanks (c :: rest) = c :: rest :=
  List.dropWhile_cons_of_neg (by rw [h]; decide)

theorem skipBlanks_opens {c : Char} (h : opens c = true) (rest : List Char) :
    skipBlanks (c :: rest) = c :: rest := by
  refine skipBlanks_cons ?_ rest
  revert h
  simp only [opens, List.contains_cons, List.contains_nil]
  grind

theorem opens_of_isDigit {c : Char} (h : c.isDigit = true) : opens c = true := by
  have hne : ∀ d : Char, d.isDigit = false → (c == d) = false := by
    intro d hd
    refine beq_eq_false_iff_ne.2 fun e => ?_
    rw [e, hd] at h
    exact absurd h (by decide)
  simp only [opens, List.contains_cons, List.contains_nil, hne ' ' rfl, hne '\n' rfl, hne '\t' rfl,
    hne '\r' rfl, hne ']' rfl, hne '\x7d' rfl]
  rfl

/-- A written number begins with a minus sign or a digit. -/
theorem intText_head (n : Int) :
    ∃ c cs, intText n = c :: cs ∧ (c = '-' ∨ c.isDigit = true) := by
  unfold intText
  split
  · exact ⟨'-', _, rfl, .inl rfl⟩
  · cases hds : Number.digits n.natAbs with
    | nil => exact absurd hds (Number.digits_ne_nil _)
    | cons d ds =>
      exact ⟨d, ds, rfl, .inr (Number.isDigit_of_mem_digits (hds ▸ List.mem_cons_self))⟩

theorem compact_opens {j : Json} (h : j.isWhole = true) :
    ∃ c cs, compact j = c :: cs ∧ opens c = true := by
  cases j with
  | null => exact ⟨'n', _, rfl, rfl⟩
  | bool b => cases b <;> exact ⟨_, _, rfl, rfl⟩
  | int n =>
    obtain ⟨c, cs, hn, rfl | hdigit⟩ := intText_head n
    · exact ⟨'-', cs, by rw [compact, hn], rfl⟩
    · exact ⟨c, cs, by rw [compact, hn], opens_of_isDigit hdigit⟩
  | real x => simp [isWhole] at h
  | str s => exact ⟨'"', _, by rw [compact, quoted, List.cons_append], rfl⟩
  | arr items => exact ⟨'[', _, by rw [compact, List.cons_append], rfl⟩
  | obj fields => exact ⟨'\x7b', _, by rw [compact, List.cons_append], rfl⟩

/-! ## Values that hold no others -/

/-- The text of a value that holds no other is handed on as a whole. -/
theorem readValue_scalar {c : Char} (hopens : opens c = true) (hitems : c ≠ '[')
    (hfields : c ≠ '\x7b') (size fuel levels : Nat) (rest : List Char) :
    readValue size (fuel + 1) levels (c :: rest) = readScalar size (c :: rest) := by
  rw [readValue, skipBlanks_opens hopens]
  split
  · next heq => cases heq; exact absurd rfl hitems
  · next heq => cases heq; exact absurd rfl hfields
  · rfl

/-- What begins with a minus sign or a digit is read as a number. -/
theorem readValue_intText (n : Int) (size fuel levels : Nat) (rest : List Char) :
    readValue size (fuel + 1) levels (intText n ++ rest) = readNumber (intText n ++ rest) := by
  obtain ⟨c, cs, hn, hc⟩ := intText_head n
  have hopens : opens c = true := hc.elim (fun e => e ▸ rfl) opens_of_isDigit
  -- no other kind of value begins so
  have hne : ∀ d : Char, d ≠ '-' → d.isDigit = false → c ≠ d := by
    rintro d hminus hdigit rfl
    rcases hc with rfl | hc
    · exact hminus rfl
    · exact absurd hc (by rw [hdigit]; decide)
  rw [hn, List.cons_append, readValue_scalar hopens (hne '[' (by decide) rfl)
    (hne '\x7b' (by decide) rfl)]
  unfold readScalar
  split
  · next heq => injection heq with hc _; exact absurd hc (hne 'n' (by decide) rfl)
  · next heq => injection heq with hc _; exact absurd hc (hne 't' (by decide) rfl)
  · next heq => injection heq with hc _; exact absurd hc (hne 'f' (by decide) rfl)
  · next heq => injection heq with hc _; exact absurd hc (hne '"' (by decide) rfl)
  · rfl

theorem readValue_quoted (s : String) {size : Nat} (h : (quoted s).length ≤ size)
    (fuel levels : Nat) (rest : List Char) :
    readValue size (fuel + 1) levels (quoted s ++ rest) = some (.str s, rest) := by
  obtain ⟨body, hbody, hread⟩ := readString_quoted s h rest
  rw [hbody, readValue_scalar (c := '"') rfl (by decide) (by decide), readScalar, hread]
  rfl

/-! ## Arrays and objects -/

theorem compactItems_opens {a : Json} (h : a.isWhole = true) (as : List Json) :
    ∃ c cs, compactItems (a :: as) = c :: cs ∧ opens c = true := by
  obtain ⟨c, cs, hc, hopens⟩ := compact_opens h
  cases as with
  | nil => exact ⟨c, cs, by rw [compactItems, hc], hopens⟩
  | cons b bs => exact ⟨c, _, by rw [compactItems, hc, List.cons_append], hopens⟩

theorem compactFields_opens (e : String × Json) (es : List (String × Json)) :
    ∃ cs, compactFields (e :: es) = '"' :: cs := by
  obtain ⟨k, a⟩ := e
  cases es with
  | nil => exact ⟨_, by rw [compactFields, quoted, List.cons_append, List.cons_append]⟩
  | cons b bs =>
    exact ⟨_, by rw [compactFields, quoted, List.cons_append, List.cons_append, List.cons_append]⟩

/-- An array without items ends at once. -/
theorem readValue_noItems (size fuel levels : Nat) (rest : List Char) :
    readValue size (fuel + 1) levels ('[' :: ']' :: rest) =
      some (.upTo levels (.arr []), rest) := by
  rw [readValue, skipBlanks_opens rfl]
  simp only [skipBlanks_cons (c := ']') rfl]
  rfl

/-- An object without fields ends at once. -/
theorem readValue_noFields (size fuel levels : Nat) (rest : List Char) :
    readValue size (fuel + 1) levels ('\x7b' :: '\x7d' :: rest) =
      some (.upTo levels (.obj []), rest) := by
  rw [readValue, skipBlanks_opens rfl]
  simp only [skipBlanks_cons (c := '\x7d') rfl]
  rfl

theorem readValue_items {c : Char} (hopens : opens c = true) (size fuel levels : Nat)
    (cs : List Char) :
    readValue size (fuel + 1) levels ('[' :: c :: cs) =
      (readItems (readValue size fuel (levels - 1)) size (c :: cs)).map fun r =>
        (if levels = 0 then .faulty else .arr r.1, r.2) := by
  rw [readValue, skipBlanks_opens rfl]
  simp only [skipBlanks_opens hopens]
  split
  · next heq => cases heq; exact absurd hopens (by decide)
  · rfl

theorem readValue_fields (size fuel levels : Nat) (cs : List Char) :
    readValue size (fuel + 1) levels ('\x7b' :: '"' :: cs) =
      (readFields (readValue size fuel (levels - 1)) size size ('"' :: cs)).map fun r =>
        (if levels = 0 then .faulty else (r.1.map Draft.obj).getD .faulty, r.2) := by
  rw [readValue, skipBlanks_opens rfl]
  simp only [skipBlanks_opens (c := '"') rfl]
  split
  · next heq => cases heq
  · rfl

/-- A field is read with its key. A closing bracket behind it makes it the last, a comma does
not. -/
theorem readFields_field {item : List Char → Option (Draft × List Char)} {k : String}
    {size : Nat} (hkey : (quoted k).length ≤ size) {text rest : List Char} {d : Draft}
    (hitem : item text = some (d, rest)) (count : Nat) (more : List Char) :
    (skipBlanks rest = '\x7d' :: more →
      readFields item size (count + 1) (quoted k ++ ':' :: text) = some (some [(k, d)], more)) ∧
    (skipBlanks rest = ',' :: more →
      readFields item size (count + 1) (quoted k ++ ':' :: text) =
        (readFields item size count more).map fun r => (r.1.map ((k, d) :: ·), r.2)) := by
  obtain ⟨body, hbody, hread⟩ := readString_quoted k hkey (':' :: text)
  rw [hbody]
  constructor
  · intro hnext
    rw [readFields, skipBlanks_opens rfl]
    simp only [hread, Option.bind_eq_bind, Option.bind_some, skipBlanks_opens (c := ':') rfl,
      hitem, hnext]
    rfl
  · intro hnext
    rw [readFields, skipBlanks_opens rfl]
    simp only [hread, Option.bind_eq_bind, Option.bind_some, skipBlanks_opens (c := ':') rfl,
      hitem, hnext]
    cases readFields item size count more <;> rfl

/-! ## Whole values -/

-- One induction over values, items and fields. `size` bounds the strings, `fuel` the nesting and
-- `count` the items of an array; the length of the text is enough for each, because what stands
-- within brackets is shorter than the text with them.
mutual

/-- The compact form of a value is read up to the levels that are followed, and the text behind it
is left. -/
theorem readValue_compact : (j : Json) → (size fuel levels : Nat) → (rest : List Char) →
    (compact j).length ≤ size → (compact j).length < fuel → j.isWhole = true → Ends rest →
    readValue size fuel levels (compact j ++ rest) = some (Draft.upTo levels j, rest)
  | _, _, 0, _, _, _, hfuel, _, _ => absurd hfuel (Nat.not_lt_zero _)
  | .null, size, fuel + 1, levels, rest, _, _, _, _ =>
    readValue_scalar (c := 'n') rfl (by decide) (by decide) size fuel levels _
  | .bool true, size, fuel + 1, levels, rest, _, _, _, _ =>
    readValue_scalar (c := 't') rfl (by decide) (by decide) size fuel levels _
  | .bool false, size, fuel + 1, levels, rest, _, _, _, _ =>
    readValue_scalar (c := 'f') rfl (by decide) (by decide) size fuel levels _
  | .int n, size, fuel + 1, levels, rest, _, _, hwhole, hrest => by
    simp only [isWhole, Bool.and_eq_true, decide_eq_true_eq] at hwhole
    rw [compact, readValue_intText, readNumber_intText hwhole.1 hwhole.2 hrest]
    rfl
  | .real _, _, _, _, _, _, _, hwhole, _ => by simp [isWhole] at hwhole
  | .str s, size, fuel + 1, levels, rest, hsize, _, _, _ => by
    rw [compact] at hsize ⊢
    exact readValue_quoted s hsize fuel levels rest
  | .arr [], size, fuel + 1, levels, rest, _, _, _, _ => readValue_noItems size fuel levels rest
  | .arr (a :: as), size, fuel + 1, levels, rest, hsize, hfuel, hwhole, _ => by
    rw [isWhole] at hwhole
    simp only [compact, List.length_cons, List.length_append, List.length_nil] at hsize hfuel
    have hread := readItems_compact (a :: as) (by simp) size fuel (levels - 1) size rest
      (by omega) (by omega) (by omega) hwhole
    have htext : compact (.arr (a :: as)) ++ rest =
        '[' :: (compactItems (a :: as) ++ ']' :: rest) := by
      simp [compact]
    -- the first item is no closing bracket, so the array is not over yet
    rw [areWhole, Bool.and_eq_true] at hwhole
    obtain ⟨c, cs, hc, hopens⟩ := compactItems_opens hwhole.1 as
    rw [hc, List.cons_append] at hread htext
    rw [htext, readValue_items hopens size fuel levels, hread, Draft.upTo]
    rfl
  | .obj [], size, fuel + 1, levels, rest, _, _, _, _ => readValue_noFields size fuel levels rest
  | .obj (e :: es), size, fuel + 1, levels, rest, hsize, hfuel, hwhole, _ => by
    rw [isWhole] at hwhole
    simp only [compact, List.length_cons, List.length_append, List.length_nil] at hsize hfuel
    have hread := readFields_compact (e :: es) (by simp) size fuel (levels - 1) size rest
      (by omega) (by omega) (by omega) hwhole
    have htext : compact (.obj (e :: es)) ++ rest =
        '\x7b' :: (compactFields (e :: es) ++ '\x7d' :: rest) := by
      simp [compact]
    obtain ⟨cs, hc⟩ := compactFields_opens e es
    rw [hc, List.cons_append] at hread htext
    rw [htext, readValue_fields size fuel levels, hread, Draft.upTo]
    rfl

/-- The same for the items of an array, up to its closing bracket. -/
theorem readItems_compact : (as : List Json) → as ≠ [] →
    (size fuel levels count : Nat) → (rest : List Char) → (compactItems as).length ≤ size →
    (compactItems as).length < fuel → (compactItems as).length < count → areWhole as = true →
    readItems (readValue size fuel levels) count (compactItems as ++ ']' :: rest) =
      some (Draft.upToItems levels as, rest)
  | [], hne, _, _, _, _, _, _, _, _, _ => absurd rfl hne
  | _, _, _, _, _, 0, _, _, _, hcount, _ => absurd hcount (Nat.not_lt_zero _)
  | [a], _, size, fuel, levels, count + 1, rest, hsize, hfuel, _, hwhole => by
    simp only [areWhole, Bool.and_true] at hwhole
    rw [compactItems] at hsize hfuel ⊢
    rw [readItems, readValue_compact a size fuel levels _ hsize hfuel hwhole (stops_cons rfl _)]
    rfl
  | a :: b :: bs, _, size, fuel, levels, count + 1, rest, hsize, hfuel, hcount, hwhole => by
    rw [areWhole, Bool.and_eq_true] at hwhole
    simp only [compactItems, List.length_append, List.length_cons] at hsize hfuel hcount
    have htail := readItems_compact (b :: bs) (by simp) size fuel levels count rest
      (by omega) (by omega) (by omega) hwhole.2
    rw [compactItems, List.append_assoc, List.cons_append, readItems,
      readValue_compact a size fuel levels _ (by omega) (by omega) hwhole.1 (stops_cons rfl _)]
    simp only [Option.bind_eq_bind, Option.bind_some, skipBlanks_opens (c := ',') rfl, htail]
    rfl

/-- The same for the fields of an object, up to its closing bracket. -/
theorem readFields_compact : (es : List (String × Json)) → es ≠ [] →
    (size fuel levels count : Nat) → (rest : List Char) → (compactFields es).length ≤ size →
    (compactFields es).length < fuel → (compactFields es).length < count →
    areWholeFields es = true →
    readFields (readValue size fuel levels) size count (compactFields es ++ '\x7d' :: rest) =
      some (some (Draft.upToFields levels es), rest)
  | [], hne, _, _, _, _, _, _, _, _, _ => absurd rfl hne
  | _, _, _, _, _, 0, _, _, _, hcount, _ => absurd hcount (Nat.not_lt_zero _)
  | [(k, a)], _, size, fuel, levels, count + 1, rest, hsize, hfuel, _, hwhole => by
    simp only [areWholeFields, Bool.and_true] at hwhole
    simp only [compactFields, List.length_append, List.length_cons] at hsize hfuel
    have hvalue := readValue_compact a size fuel levels ('\x7d' :: rest) (by omega) (by omega)
      hwhole (stops_cons rfl _)
    rw [compactFields, List.append_assoc, List.cons_append]
    exact (readFields_field (by omega) hvalue count rest).1 (skipBlanks_cons rfl _)
  | (k, a) :: b :: bs, _, size, fuel, levels, count + 1, rest, hsize, hfuel, hcount, hwhole => by
    rw [areWholeFields, Bool.and_eq_true] at hwhole
    simp only [compactFields, List.length_append, List.length_cons] at hsize hfuel hcount
    have htail := readFields_compact (b :: bs) (by simp) size fuel levels count rest
      (by omega) (by omega) (by omega) hwhole.2
    have hvalue := readValue_compact a size fuel levels
      (',' :: (compactFields (b :: bs) ++ '\x7d' :: rest)) (by omega) (by omega) hwhole.1
      (stops_cons rfl _)
    have htext : compactFields ((k, a) :: b :: bs) ++ '\x7d' :: rest =
        quoted k ++ ':' :: (compact a ++ ',' :: (compactFields (b :: bs) ++ '\x7d' :: rest)) := by
      simp [compactFields]
    rw [htext, (readFields_field (by omega) hvalue count _).2 (skipBlanks_opens rfl _), htail]
    rfl

end

/-- The text of a value is read as the value, up to the nesting that a reader follows. -/
theorem readValue_chars {j : Json} (h : j.isWhole = true) (levels : Nat) :
    readValue (j.compact.length + 1) (j.compact.length + 1) levels j.compact =
      some (Draft.upTo levels j, []) := by
  have hread := readValue_compact j (j.compact.length + 1) (j.compact.length + 1) levels []
    (Nat.le_succ _) (Nat.lt_succ_self _) h (stops_nil _)
  rwa [List.append_nil] at hread

theorem Draft.ofText?_toText {j : Json} (h : j.isWhole = true) :
    Draft.ofText? j.toText = some (Draft.upTo 127 j) := by
  simp only [Draft.ofText?, toText, String.toList_ofList, readValue_chars h]
  rfl

end Json
end TaskTable
