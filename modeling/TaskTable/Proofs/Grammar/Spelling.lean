import TaskTable.Proofs.Grammar.Exact

/-!
# The language of table lines

What a table line looks like, told without a reader: `Spells` relates each line to its texts, from
the line's first token to its end. The readers of options and headers, which make up most of a line,
take exactly the texts that are given here.
-/

namespace TaskTable
namespace Grammar

open Reader

/-! ## Texts -/

/-- The texts of an option. -/
inductive SpellsSetting : Setting → List Char → Prop
  | wait (digits : List Char) (hne : digits ≠ []) (h : ∀ d ∈ digits, d.isDigit = true) :
    SpellsSetting (.wait digits) ("wait=".toList ++ digits)
  | max (digits : List Char) (hne : digits ≠ []) (h : ∀ d ∈ digits, d.isDigit = true) :
    SpellsSetting (.max digits) ("max=".toList ++ digits)
  | exec (on : Bool) :
    SpellsSetting (.exec on) ("exec=".toList ++ (if on then "true" else "false").toList)

/-- The texts of options up to the end of a line. Gaps may stand in front of each and behind the
last; each is placed by the bytes from its first character on. -/
inductive SpellsSettings : List PlacedSetting → List Char → Prop
  | nil (g : List Char) (hg : IsGap g) : SpellsSettings [] g
  | cons (g w rest : List Char) (s : Setting) (ss : List PlacedSetting) (hg : IsGap g)
    (hw : SpellsSetting s w) (hrest : SpellsSettings ss rest) :
    SpellsSettings (⟨Text.byteLength (w ++ rest), s⟩ :: ss) (g ++ (w ++ rest))

/-- The texts of the selector method of a header, which may be missing. -/
inductive SpellsMethod : Option String → List Char → Prop
  | none : SpellsMethod none []
  | some (g g' : List Char) (m : String) (hg : IsGap g) (hg' : IsGap g') (hm : IsName m) :
    SpellsMethod (some m) (g ++ ':' :: (g' ++ m.toList))

/-- The texts of the timer of a header, which may be missing. -/
inductive SpellsTimer : Option String → List Char → Prop
  | none : SpellsTimer none []
  | some (g g' g'' : List Char) (t : String) (hg : IsGap g) (hg' : IsGap g') (hg'' : IsGap g'')
    (ht : IsName t) : SpellsTimer (some t) (g ++ '[' :: (g' ++ (t.toList ++ (g'' ++ [']']))))

/-- The texts of a line from its first token on. A bare value needs a gap behind it, and the options
of a transition must not run into its target. -/
inductive Spells : Line → List Char → Prop
  | blockClose (g : List Char) (hg : IsGap g) : Spells .blockClose ('}' :: g)
  | blockOpen (state : String) (method timer : Option String) (m t g g' : List Char)
    (hstate : IsName state) (hm : SpellsMethod method m) (ht : SpellsTimer timer t)
    (hg : IsGap g) (hg' : IsGap g') :
    Spells (.blockOpen state method timer) (state.toList ++ (m ++ (t ++ (g ++ '{' :: g'))))
  | assignment (name value : String) (g g' w g'' : List Char) (hname : IsName name)
    (hg : IsGap g) (hg' : IsGap g') (hw : SpellsValue value w) (hg'' : IsGap g'') :
    Spells (.assignment name value) (name.toList ++ (g ++ '=' :: (g' ++ (w ++ g''))))
  | transition (value target : String) (ss : List PlacedSetting) (w g rest : List Char)
    (hw : SpellsValue value w) (hg : IsGap g) (htarget : IsName target)
    (hrest : SpellsSettings ss rest) (hgap : (∀ c ∈ w, isValueChar c = true) → g ≠ [])
    (hend : Stops isNameChar rest) :
    Spells (.transition value target ss) (w ++ (g ++ (target.toList ++ rest)))

/-- The texts of a line, which may start with a gap. -/
def SpellsLine (line : Line) (s : List Char) : Prop :=
  ∃ g w, IsGap g ∧ Spells line w ∧ s = g ++ w

/-- A closing brace closes a block. -/
theorem spells_brace : SpellsLine .blockClose ['}'] :=
  ⟨[], _, isGap_nil, .blockClose [] isGap_nil, rfl⟩

/-! ## Options -/

section Options

variable {s rest : List Char}

/-- What is read as an option spells it. -/
theorem spells_of_read_setting {p : PlacedSetting} (h : setting.read s = some (p, rest)) :
    ∃ w, SpellsSetting p.setting w ∧ s = w ++ rest ∧ p.bytesAhead = Text.byteLength s := by
  have hahead : (ahead : TextReader (List Char)).read s = some (s, s) := rfl
  unfold setting at h
  rw [read_bind, hahead, Option.bind_some] at h
  obtain ⟨st, _, hread, hpure⟩ := read_bind_iff.1 h
  cases hpure
  refine Exists.imp (fun w hw => ⟨hw.1, hw.2, rfl⟩) (?_ : ∃ w, SpellsSetting st w ∧ s = w ++ rest)
  rw [read_orElse, Option.or_eq_some_iff, read_orElse, Option.or_eq_some_iff] at hread
  rcases hread with hwait | ⟨-, hmax | ⟨-, hexec⟩⟩
  · simp only [waitOpt, uint, read_named, read_bind_iff, read_literal_iff, read_run1_iff, read_pure,
      Option.some.injEq, Prod.mk.injEq] at hwait
    obtain ⟨_, _, rfl, digits, _, ⟨rfl, hne, hdigits, -⟩, rfl, rfl⟩ := hwait
    exact ⟨_, .wait digits hne hdigits, (List.append_assoc _ _ _).symm⟩
  · simp only [maxOpt, uint, read_named, read_bind_iff, read_literal_iff, read_run1_iff, read_pure,
      Option.some.injEq, Prod.mk.injEq] at hmax
    obtain ⟨_, _, rfl, digits, _, ⟨rfl, hne, hdigits, -⟩, rfl, rfl⟩ := hmax
    exact ⟨_, .max digits hne hdigits, (List.append_assoc _ _ _).symm⟩
  · simp only [execOpt, boolLit, read_named, read_bind_iff, read_literal_iff, read_orElse,
      Option.or_eq_some_iff, read_pure, Option.some.injEq, Prod.mk.injEq] at hexec
    obtain ⟨_, _, rfl, on, _, ⟨_, _, rfl, rfl, rfl⟩ | ⟨-, _, _, rfl, rfl, rfl⟩, rfl, rfl⟩ := hexec
    · exact ⟨_, .exec true, (List.append_assoc _ _ _).symm⟩
    · exact ⟨_, .exec false, (List.append_assoc _ _ _).symm⟩

/-- An option is read off its text, unless its digits run on into what follows. -/
theorem read_setting_of_spells {st : Setting} {w : List Char} (h : SpellsSetting st w)
    (hrest : Stops Char.isDigit rest) :
    setting.read (w ++ rest) = some (⟨Text.byteLength (w ++ rest), st⟩, rest) := by
  suffices hread : (waitOpt.orElse (maxOpt.orElse execOpt)).read (w ++ rest) = some (st, rest) by
    unfold setting
    rw [read_bind_iff]
    refine ⟨_, _, rfl, ?_⟩
    rw [read_bind, hread]
    rfl
  cases h with
  | wait digits hne hdigits =>
    have hwait : waitOpt.read ("wait=".toList ++ (digits ++ rest)) = some (.wait digits, rest) := by
      simp only [waitOpt, uint, read_named, read_bind_iff, read_literal_iff, read_run1_iff]
      exact ⟨(), _, rfl, digits, rest, ⟨rfl, hne, hdigits, hrest⟩, rfl⟩
    rw [List.append_assoc, read_orElse, hwait]
    rfl
  | max digits hne hdigits =>
    have hwait : waitOpt.read ("max=".toList ++ (digits ++ rest)) = none := rfl
    have hmax : maxOpt.read ("max=".toList ++ (digits ++ rest)) = some (.max digits, rest) := by
      simp only [maxOpt, uint, read_named, read_bind_iff, read_literal_iff, read_run1_iff]
      exact ⟨(), _, rfl, digits, rest, ⟨rfl, hne, hdigits, hrest⟩, rfl⟩
    rw [List.append_assoc, read_orElse, hwait, Option.none_or, read_orElse, hmax]
    rfl
  | exec on =>
    cases on
    · rfl
    · rfl

/-- An option begins with a letter. -/
theorem SpellsSetting.front {st : Setting} {w : List Char} (h : SpellsSetting st w) :
    ∃ c cs, w = c :: cs ∧ isGap c = false ∧ c.isDigit = false := by
  cases h
  · exact ⟨'w', _, rfl, by decide, by decide⟩
  · exact ⟨'m', _, rfl, by decide, by decide⟩
  · exact ⟨'e', _, rfl, by decide, by decide⟩

/-- The digits of an option do not run on into the next one. -/
theorem SpellsSettings.stops_digits {ss : List PlacedSetting} (h : SpellsSettings ss s) :
    Stops Char.isDigit s := by
  cases h with
  | nil _ hg =>
    intro c hc
    exact isDigit_of_isGap (hg c (List.mem_of_head? hc))
  | cons g w rest st ss hg hw hrest =>
    obtain ⟨c, cs, rfl, -, hc⟩ := hw.front
    exact stops_append (fun d hd => isDigit_of_isGap (hg d hd)) (stops_cons hc _)

/-- No option is read off a gap. -/
theorem read_gap_setting_of_isGap {g : List Char} (hg : IsGap g) :
    (do gap; setting : TextReader PlacedSetting).read g = none := by
  have hgap := read_gap hg (stops_nil isGap)
  rw [List.append_nil] at hgap
  rw [read_bind, hgap]
  rfl

theorem read_gap_setting_of_spells {g w : List Char} {st : Setting} {ss : List PlacedSetting}
    (hg : IsGap g) (hw : SpellsSetting st w) (hrest : SpellsSettings ss rest) :
    gap.read (g ++ (w ++ rest)) = some ((), w ++ rest) ∧
      setting.read (w ++ rest) = some (⟨Text.byteLength (w ++ rest), st⟩, rest) := by
  have hread := read_setting_of_spells hw hrest.stops_digits
  refine ⟨read_gap hg ?_, hread⟩
  obtain ⟨c, cs, rfl, hc, -⟩ := hw.front
  exact stops_cons hc _

/-- Options are read one by one, up to the gap at the end of the line. -/
theorem repeatRead_of_spells {ss : List PlacedSetting} (h : SpellsSettings ss s) :
    ∀ n, s.length < n →
      ∃ g, IsGap g ∧ repeatRead (do gap; setting : TextReader PlacedSetting) n s = (ss, g) := by
  induction h with
  | nil g hg =>
    intro n hn
    obtain ⟨n, rfl⟩ := Nat.exists_eq_succ_of_ne_zero (Nat.ne_zero_of_lt hn)
    refine ⟨g, hg, ?_⟩
    rw [repeatRead, read_gap_setting_of_isGap hg]
  | cons g w rest st ss hg hw hrest ih =>
    intro n hn
    obtain ⟨n, rfl⟩ := Nat.exists_eq_succ_of_ne_zero (Nat.ne_zero_of_lt hn)
    obtain ⟨hgap, hread⟩ := read_gap_setting_of_spells hg hw hrest
    have hone : (do gap; setting : TextReader PlacedSetting).read (g ++ (w ++ rest)) =
        some (⟨Text.byteLength (w ++ rest), st⟩, rest) := by
      rw [read_bind, hgap]
      exact hread
    have hlength : rest.length < n := by
      obtain ⟨c, cs, rfl, -⟩ := hw.front
      simp only [List.length_append, List.length_cons] at hn
      omega
    obtain ⟨g', hg', hrepeat⟩ := ih n hlength
    refine ⟨g', hg', ?_⟩
    rw [repeatRead, hone]
    dsimp only
    rw [hrepeat]

/-- What is read as options spells them, if only a gap is left of the line. -/
theorem spells_of_repeatRead {ss : List PlacedSetting} {n : Nat}
    (h : repeatRead (do gap; setting : TextReader PlacedSetting) n s = (ss, rest))
    (hrest : IsGap rest) : SpellsSettings ss s := by
  induction n generalizing s ss with
  | zero =>
    cases h
    exact .nil _ hrest
  | succ n ih =>
    rw [repeatRead] at h
    split at h
    · cases h
      exact .nil _ hrest
    · next p s' hread =>
      obtain ⟨_, _, hgap, hsetting⟩ := read_bind_iff.1 hread
      obtain ⟨g, hg, rfl, -⟩ := read_gap_iff.1 hgap
      obtain ⟨w, hw, rfl, hbytes⟩ := spells_of_read_setting hsetting
      cases h
      obtain ⟨bytes, st⟩ := p
      cases hbytes
      exact .cons _ _ _ _ _ hg hw (ih rfl)

/-- The options of a line, with the gap in front of them. -/
theorem read_settings_of_spells {ss : List PlacedSetting} (h : SpellsSettings ss s) :
    ∃ g, IsGap g ∧ (do gap; spaced setting : TextReader (List PlacedSetting)).read s =
      some (ss, g) := by
  cases h with
  | nil g hg =>
    have hgap := read_gap hg (stops_nil isGap)
    rw [List.append_nil] at hgap
    refine ⟨[], isGap_nil, ?_⟩
    rw [read_bind, hgap]
    rfl
  | cons g w rest st ss hg hw hrest =>
    obtain ⟨hgap, hread⟩ := read_gap_setting_of_spells hg hw hrest
    obtain ⟨g', hg', hrepeat⟩ := repeatRead_of_spells hrest _ (Nat.lt_succ_self _)
    refine ⟨g', hg', ?_⟩
    have hmany : (many (do gap; setting) : TextReader (List PlacedSetting)).read rest =
        some (ss, g') := congrArg some hrepeat
    rw [read_bind, hgap, Option.bind_some]
    unfold spaced
    rw [read_bind, read_opt, hread]
    dsimp only [Option.elim_some, Option.bind_some]
    rw [read_bind, hmany]
    rfl

theorem spells_of_read_settings {ss : List PlacedSetting}
    (h : (do gap; spaced setting : TextReader (List PlacedSetting)).read s = some (ss, rest))
    (hrest : IsGap rest) : SpellsSettings ss s := by
  obtain ⟨_, _, hgap, hspaced⟩ := read_bind_iff.1 h
  obtain ⟨g, hg, rfl, -⟩ := read_gap_iff.1 hgap
  unfold spaced at hspaced
  rw [read_bind, read_opt, Option.bind_some] at hspaced
  cases hread : setting.read _ with
  | none =>
    rw [hread] at hspaced
    cases hspaced
    exact .nil _ (hg.append hrest)
  | some r =>
    obtain ⟨⟨bytes, st⟩, s'⟩ := r
    rw [hread] at hspaced
    obtain ⟨ps, _, hmany, hpure⟩ := read_bind_iff.1 hspaced
    obtain ⟨w, hw, rfl, hbytes⟩ := spells_of_read_setting hread
    cases hbytes
    cases hpure
    exact .cons _ _ _ _ _ hg hw (spells_of_repeatRead (Option.some.inj hmany) hrest)

end Options

/-! ## Headers -/

section Headers

variable {s rest : List Char}

/-- The selector method of a header, with its colon. -/
def methodPart : TextReader String := do
  literal [':']
  gap
  methodName

/-- The timer of a header, in its brackets. -/
def timerPart : TextReader String := do
  literal ['[']
  gap
  let t ← timerName
  gap
  literal [']']
  return t

/-- What is read as the method of a header spells it; a gap may be left over. -/
theorem spells_of_read_method {s' : List Char} {u : Unit} {method : Option String}
    (hgap : gap.read s = some (u, s')) (h : (opt methodPart).read s' = some (method, rest)) :
    ∃ w g, SpellsMethod method w ∧ IsGap g ∧ s = w ++ (g ++ rest) := by
  obtain ⟨g, hg, rfl, -⟩ := read_gap_iff.1 hgap
  rcases read_opt_iff.1 h with ⟨m, rfl, hread⟩ | ⟨rfl, -, rfl⟩
  · simp only [methodPart, methodName, read_bind_iff, read_named, read_literal_iff, read_gap_iff,
      read_ident_iff] at hread
    obtain ⟨_, _, rfl, _, _, ⟨g', hg', rfl, -⟩, rfl, hm, -⟩ := hread
    exact ⟨_, [], .some g g' m hg hg' hm, isGap_nil, by simp⟩
  · exact ⟨[], g, .none, hg, rfl⟩

/-- What is read as the timer of a header spells it, also behind a gap. -/
theorem spells_of_read_timer {s' g : List Char} {u : Unit} {timer : Option String}
    (hg : IsGap g) (hgap : gap.read s = some (u, s'))
    (h : (opt timerPart).read s' = some (timer, rest)) :
    ∃ w g', SpellsTimer timer w ∧ IsGap g' ∧ g ++ s = w ++ (g' ++ rest) := by
  obtain ⟨g', hg', rfl, -⟩ := read_gap_iff.1 hgap
  rcases read_opt_iff.1 h with ⟨t, rfl, hread⟩ | ⟨rfl, -, rfl⟩
  · simp only [timerPart, timerName, read_bind_iff, read_named, read_literal_iff, read_gap_iff,
      read_ident_iff, read_pure, Option.some.injEq, Prod.mk.injEq] at hread
    obtain ⟨_, _, rfl, _, _, ⟨g₁, hg₁, rfl, -⟩, t, _, ⟨rfl, ht, -⟩, _, _, ⟨g₂, hg₂, rfl, -⟩,
      _, _, rfl, rfl, rfl⟩ := hread
    exact ⟨_, [], .some (g ++ g') g₁ g₂ t (hg.append hg') hg₁ hg₂ ht, isGap_nil, by simp⟩
  · exact ⟨[], g ++ g', .none, hg.append hg', by simp⟩

/-- What is read as a header has the parts of one, up to its brace. -/
theorem parts_of_read_blockOpen {line : Line} (h : blockOpen.read s = some (line, rest)) :
    ∃ state method timer m t g, line = .blockOpen state method timer ∧ IsName state ∧
      SpellsMethod method m ∧ SpellsTimer timer t ∧ IsGap g ∧
      s = state.toList ++ (m ++ (t ++ (g ++ '{' :: rest))) := by
  unfold blockOpen at h
  rw [read_named] at h
  obtain ⟨state, _, hstate, h₁⟩ := read_bind_iff.1 h
  obtain ⟨_, _, hgap₁, h₂⟩ := read_bind_iff.1 h₁
  obtain ⟨method, _, hmethod, h₃⟩ := read_bind_iff.1 h₂
  obtain ⟨_, _, hgap₂, h₄⟩ := read_bind_iff.1 h₃
  obtain ⟨timer, _, htimer, h₅⟩ := read_bind_iff.1 h₄
  obtain ⟨_, _, hgap₃, h₆⟩ := read_bind_iff.1 h₅
  obtain ⟨_, _, hbrace, hpure⟩ := read_bind_iff.1 h₆
  cases hpure
  obtain ⟨rfl, hname, -⟩ := read_ident_iff.1 hstate
  obtain ⟨m, g₁, hm, hg₁, rfl⟩ := spells_of_read_method hgap₁ hmethod
  obtain ⟨t, g₂, ht, hg₂, htext⟩ := spells_of_read_timer hg₁ hgap₂ htimer
  obtain ⟨g₃, hg₃, rfl, -⟩ := read_gap_iff.1 hgap₃
  rw [read_literal_iff] at hbrace
  refine ⟨state, method, timer, m, t, g₂ ++ g₃, rfl, hname, hm, ht, hg₂.append hg₃, ?_⟩
  rw [htext, hbrace]
  simp

theorem SpellsMethod.stops_name {method : Option String} {m : List Char}
    (h : SpellsMethod method m) (hrest : Stops isNameChar rest) :
    Stops isNameChar (m ++ rest) := by
  cases h with
  | none => exact hrest
  | some g g' m hg hg' hm =>
    rw [List.append_assoc]
    exact hg.stops_name (by decide) _

theorem SpellsTimer.stops_name {timer : Option String} {t : List Char}
    (h : SpellsTimer timer t) (hrest : Stops isNameChar rest) :
    Stops isNameChar (t ++ rest) := by
  cases h with
  | none => exact hrest
  | some g g' g'' t hg hg' hg'' ht =>
    rw [List.append_assoc]
    exact hg.stops_name (by decide) _

/-- No colon follows the method of a header. -/
theorem SpellsTimer.stops_colon {timer : Option String} {t : List Char}
    (h : SpellsTimer timer t) (hrest : Stops (· == ':') (rest.dropWhile isGap)) :
    Stops (· == ':') ((t ++ rest).dropWhile isGap) := by
  cases h with
  | none => exact hrest
  | some g g' g'' t hg hg' hg'' ht =>
    rw [List.append_assoc, List.cons_append, dropWhile_of_stops hg (stops_cons (by decide) _)]
    exact stops_cons (by decide) _

/-- The method of a header is read off its text, whatever gap is in front of it. -/
theorem read_method_of_spells {method : Option String} {w : List Char}
    (h : SpellsMethod method w) (hname : Stops isNameChar rest)
    (hcolon : Stops (· == ':') (rest.dropWhile isGap)) :
    ∃ r, (opt methodPart).read ((w ++ rest).dropWhile isGap) = some (method, r) ∧
      r.dropWhile isGap = rest.dropWhile isGap := by
  cases h with
  | none =>
    refine ⟨rest.dropWhile isGap, read_opt_iff.2 (.inr ⟨rfl, ?_, rfl⟩), ?_⟩
    · unfold methodPart
      rw [List.nil_append, read_bind, read_literal_of_stops hcolon]
      rfl
    · exact dropWhile_eq_self_of_stops (stops_dropWhile isGap rest)
  | some g g' m hg hg' hm =>
    have hstop := stops_gap_of_isName hm rest
    refine ⟨rest, read_opt_iff.2 (.inl ⟨m, rfl, ?_⟩), rfl⟩
    rw [List.append_assoc, List.cons_append, dropWhile_of_stops hg (stops_cons (by decide) _),
      List.append_assoc]
    simp only [methodPart, methodName, read_bind_iff, read_named, read_literal_iff, read_gap_iff,
      read_ident_iff]
    exact ⟨(), _, rfl, (), _, ⟨g', hg', rfl, hstop⟩, rfl, hm, hname⟩

/-- The timer of a header is read off its text, whatever gap is in front of it. -/
theorem read_timer_of_spells {timer : Option String} {w : List Char} (h : SpellsTimer timer w)
    (hbracket : Stops (· == '[') (rest.dropWhile isGap)) :
    ∃ r, (opt timerPart).read ((w ++ rest).dropWhile isGap) = some (timer, r) ∧
      r.dropWhile isGap = rest.dropWhile isGap := by
  cases h with
  | none =>
    refine ⟨rest.dropWhile isGap, read_opt_iff.2 (.inr ⟨rfl, ?_, rfl⟩), ?_⟩
    · unfold timerPart
      rw [List.nil_append, read_bind, read_literal_of_stops hbracket]
      rfl
    · exact dropWhile_eq_self_of_stops (stops_dropWhile isGap rest)
  | some g g' g'' t hg hg' hg'' ht =>
    have hstop := stops_gap_of_isName ht (g'' ++ ']' :: rest)
    have hend : Stops isNameChar (g'' ++ ']' :: rest) := hg''.stops_name (by decide) rest
    have hclose : Stops isGap (']' :: rest) := stops_cons (by decide) rest
    refine ⟨rest, read_opt_iff.2 (.inl ⟨t, rfl, ?_⟩), rfl⟩
    rw [List.append_assoc, List.cons_append, dropWhile_of_stops hg (stops_cons (by decide) _)]
    simp only [List.append_assoc, List.singleton_append]
    simp only [timerPart, timerName, read_bind_iff, read_named, read_literal_iff, read_gap_iff,
      read_ident_iff, read_pure, Option.some.injEq, Prod.mk.injEq]
    exact ⟨(), _, rfl, (), _, ⟨g', hg', rfl, hstop⟩, t, _, ⟨rfl, ht, hend⟩, (), _,
      ⟨g'', hg'', rfl, hclose⟩, (), rest, rfl, rfl, rfl⟩

/-- A header is read off its text. -/
theorem read_blockOpen_of_spells {state : String} {method timer : Option String}
    {m t g : List Char} (hstate : IsName state) (hm : SpellsMethod method m)
    (ht : SpellsTimer timer t) (hg : IsGap g) (rest : List Char) :
    blockOpen.read (state.toList ++ (m ++ (t ++ (g ++ '{' :: rest)))) =
      some (.blockOpen state method timer, rest) := by
  have hbrace : (g ++ '{' :: rest).dropWhile isGap = '{' :: rest :=
    dropWhile_of_stops hg (stops_cons (by decide) rest)
  have hend : Stops isNameChar (g ++ '{' :: rest) := hg.stops_name (by decide) rest
  have hcolon : Stops (· == ':') ((g ++ '{' :: rest).dropWhile isGap) := by
    rw [hbrace]
    exact stops_cons (by decide) rest
  have hbracket : Stops (· == '[') ((g ++ '{' :: rest).dropWhile isGap) := by
    rw [hbrace]
    exact stops_cons (by decide) rest
  have hread := read_stateName hstate (hm.stops_name (ht.stops_name hend))
  obtain ⟨r, hmethod, hr⟩ := read_method_of_spells hm (ht.stops_name hend) (ht.stops_colon hcolon)
  obtain ⟨r', htimer, hr'⟩ := read_timer_of_spells ht hbracket
  rw [← hr] at htimer
  rw [hbrace] at hr'
  have hlast : gap.read r' = some ((), '{' :: rest) := by rw [read_gap_eq, hr']
  unfold blockOpen
  rw [read_named]
  refine read_bind_iff.2 ⟨state, _, hread, ?_⟩
  refine read_bind_iff.2 ⟨(), _, read_gap_eq _, ?_⟩
  refine read_bind_iff.2 ⟨method, r, hmethod, ?_⟩
  refine read_bind_iff.2 ⟨(), _, read_gap_eq _, ?_⟩
  refine read_bind_iff.2 ⟨timer, r', htimer, ?_⟩
  refine read_bind_iff.2 ⟨(), _, hlast, ?_⟩
  exact read_bind_iff.2 ⟨(), rest, read_literal_cons '{' rest, rfl⟩

end Headers

end Grammar
end TaskTable
