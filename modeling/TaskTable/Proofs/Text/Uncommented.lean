import TaskTable.Proofs.Text.Layout
import TaskTable.Script.Read

/-!
# Texts without comments

Quotes may run on over a line feed, but the scanner that takes comments off begins anew on each
line. `Uncommented` follows it over a whole text: no comment begins there, though a quoted value may
have lines of which the scanner knows nothing. Such a text only loses the carriage returns of its
line ends when its comments are taken off (`stripComments_of_uncommented`).
-/

namespace TaskTable
namespace Text

/-! ## Following the scanner -/

/-- The quote that is open behind a character. A line feed closes every quote. -/
def quoteBehind (q : Option Char) (c : Char) : Option Char :=
  if c = '\n' then none
  else
    match q with
    | none => if c = '\'' ∨ c = '"' then some c else none
    | some q => if c = q then none else some q

/-- No comment begins in a text, when the quote `q` is open at its start. -/
def Uncommented : (q : Option Char) → List Char → Prop
  | _, [] => True
  | q, c :: cs => (q = none → c ≠ '#') ∧ Uncommented (quoteBehind q c) cs

theorem stripCommentFrom_cons {q : Option Char} {c : Char} (h : q = none → c ≠ '#')
    (hfeed : c ≠ '\n') (cs : List Char) :
    stripCommentFrom q (c :: cs) = c :: stripCommentFrom (quoteBehind q c) cs := by
  cases q with
  | none =>
    rw [stripCommentFrom, if_neg (h rfl), quoteBehind, if_neg hfeed]
    split <;> rfl
  | some q =>
    rw [stripCommentFrom, quoteBehind, if_neg hfeed]
    split <;> rfl

theorem uncommented_append {q : Option Char} {a b : List Char} :
    Uncommented q (a ++ b) ↔ Uncommented q a ∧ Uncommented (a.foldl quoteBehind q) b := by
  induction a generalizing q with
  | nil => simp [Uncommented]
  | cons c cs ih => simp only [List.cons_append, Uncommented, ih, List.foldl_cons, and_assoc]

/-- A line feed begins a line in which no quote is open. -/
theorem uncommented_feed {q : Option Char} {s : List Char} :
    Uncommented q ('\n' :: s) ↔ Uncommented none s := by
  rw [Uncommented]
  exact ⟨And.right, fun h => ⟨fun _ => by decide, h⟩⟩

/-- Ordinary characters leave things as they are, where no quote is open. -/
theorem uncommented_ordinary_append {w s : List Char} (hw : ∀ c ∈ w, IsOrdinary c) :
    Uncommented none (w ++ s) ↔ Uncommented none s := by
  induction w with
  | nil => rfl
  | cons c cs ih =>
    obtain ⟨hhash, hsingle, hdouble⟩ := hw c List.mem_cons_self
    have hbehind : quoteBehind none c = none := by
      unfold quoteBehind
      simp [hsingle, hdouble]
    rw [List.cons_append, Uncommented, hbehind, ih fun d hd => hw d (List.mem_cons_of_mem _ hd)]
    exact ⟨And.right, fun h => ⟨fun _ => hhash, h⟩⟩

/-- A text without comments can be put between quotes that it does not hold: its first line has no
comment there, and the others are what they were. -/
theorem Uncommented.quoted {q : Option Char} {v : List Char} (h : Uncommented q v) {q' : Char}
    (hv : q' ∉ v) : Uncommented (some q') v := by
  induction v generalizing q with
  | nil => trivial
  | cons c cs ih =>
    have hc : c ≠ q' := fun heq => hv (heq ▸ List.mem_cons_self)
    have hcs : q' ∉ cs := fun hmem => hv (List.mem_cons_of_mem _ hmem)
    refine ⟨nofun, ?_⟩
    unfold quoteBehind
    split
    · next hfeed =>
      subst hfeed
      exact uncommented_feed.1 h
    · dsimp only
      rw [if_neg hc]
      exact ih h.2 hcs

/-! ## Texts that were stripped -/

theorem uncommented_stripCommentFrom (q : Option Char) {l : List Char} (hl : '\n' ∉ l) :
    Uncommented q (stripCommentFrom q l) := by
  induction l generalizing q with
  | nil => cases q <;> trivial
  | cons c cs ih =>
    have hfeed : c ≠ '\n' := fun heq => hl (heq ▸ List.mem_cons_self)
    have hcs : '\n' ∉ cs := fun hmem => hl (List.mem_cons_of_mem _ hmem)
    by_cases hcomment : q = none ∧ c = '#'
    · obtain ⟨rfl, rfl⟩ := hcomment
      trivial
    · have hopen : q = none → c ≠ '#' := fun hq hc => hcomment ⟨hq, hc⟩
      rw [stripCommentFrom_cons hopen hfeed]
      exact ⟨hopen, ih _ hcs⟩

theorem uncommented_unlines {ls : List (List Char)} (h : ∀ l ∈ ls, Uncommented none l) :
    Uncommented none (unlines ls) := by
  induction ls with
  | nil => trivial
  | cons l ls ih =>
    have hrest := ih fun m hm => h m (List.mem_cons_of_mem _ hm)
    cases ls with
    | nil => exact h l List.mem_cons_self
    | cons m ms =>
      rw [unlines_cons_cons, uncommented_append, uncommented_feed]
      exact ⟨h l List.mem_cons_self, hrest⟩

/-- No comment begins in a text whose comments are taken off. -/
theorem uncommented_stripComments (source : List Char) :
    Uncommented none (Script.stripComments source) := by
  refine uncommented_unlines fun l hl => ?_
  obtain ⟨m, hm, rfl⟩ := List.mem_map.1 hl
  exact uncommented_stripCommentFrom none (not_mem_of_mem_lines hm)

theorem forall_mem_of_cons {α : Type} {p : α → Prop} {l : List α}
    (h : ∀ a as, l = a :: as → p a ∧ ∀ b ∈ as, p b) : ∀ b ∈ l, p b := by
  cases l with
  | nil => nofun
  | cons a as => exact List.forall_mem_cons.2 (h a as rfl)

/-- The lines of a text without comments lose nothing; a quote may be open in the first. -/
theorem Uncommented.first_line {q : Option Char} {s : List Char} (h : Uncommented q s) :
    ∀ l ls, lines s = l :: ls → stripCommentFrom q l = l ∧ ∀ m ∈ ls, stripComment m = m := by
  have hnil : ∀ q, stripCommentFrom q [] = [] := fun q => by cases q <;> rfl
  fun_induction lines s generalizing q with
  | case1 => rintro l ls ⟨⟩
  | case2 cs ih =>
    rintro l ls ⟨⟩
    exact ⟨hnil q, forall_mem_of_cons (ih (uncommented_feed.1 h))⟩
  | case3 cs ih =>
    rintro l ls ⟨⟩
    exact ⟨hnil q, forall_mem_of_cons (ih (uncommented_feed.1 h.2))⟩
  | case4 c cs hc _ heq ih =>
    rintro l ls ⟨⟩
    rw [stripCommentFrom_cons h.1 hc, hnil]
    exact ⟨rfl, List.forall_mem_nil _⟩
  | case5 c cs hc _ m ms heq ih =>
    rintro l ls ⟨⟩
    obtain ⟨hm, hms⟩ := ih h.2 m ms heq
    rw [stripCommentFrom_cons h.1 hc, hm]
    exact ⟨rfl, hms⟩

theorem Uncommented.lines_eq {s : List Char} (h : Uncommented none s) :
    (lines s).map stripComment = lines s :=
  (List.map_congr_left (forall_mem_of_cons h.first_line)).trans (List.map_id _)

/-! ## Line ends -/

/-- A text whose line ends are line feeds alone. -/
def feedsOnly : List Char → List Char
  | [] => []
  | '\r' :: '\n' :: cs => '\n' :: feedsOnly cs
  | c :: cs => c :: feedsOnly cs

theorem feedsOnly_cons {c : Char} {cs : List Char} (h : ∀ s, c = '\r' → cs ≠ '\n' :: s) :
    feedsOnly (c :: cs) = c :: feedsOnly cs :=
  feedsOnly.eq_3 c cs h

theorem feedsOnly_cons_of_ne {c : Char} (h : c ≠ '\r') (cs : List Char) :
    feedsOnly (c :: cs) = c :: feedsOnly cs :=
  feedsOnly_cons fun _ heq => absurd heq h

/-- Characters that are no carriage returns stay, and so does what stands behind them. -/
theorem feedsOnly_append_of_not_mem {w : List Char} (h : '\r' ∉ w) (s : List Char) :
    feedsOnly (w ++ s) = w ++ feedsOnly s := by
  induction w with
  | nil => rfl
  | cons c cs ih =>
    have hc : c ≠ '\r' := fun heq => h (heq ▸ List.mem_cons_self)
    rw [List.cons_append, feedsOnly_cons_of_ne hc, ih fun hmem => h (List.mem_cons_of_mem _ hmem)]
    rfl

/-- Text behind which no line feed stands has its own line ends. -/
theorem feedsOnly_concat (s : List Char) {c : Char} (h : c ≠ '\n') :
    feedsOnly (s ++ [c]) = feedsOnly s ++ [c] := by
  fun_induction feedsOnly s with
  | case1 => exact feedsOnly_cons fun s _ => List.cons_ne_nil _ _ ∘ Eq.symm
  | case2 cs ih => rw [List.cons_append, List.cons_append, feedsOnly, ih]; rfl
  | case3 d ds hd ih =>
    rw [List.cons_append, feedsOnly_cons, ih]
    · rfl
    · intro s hreturn heq
      cases ds with
      | nil =>
        injection heq with heq
        exact h heq
      | cons e es =>
        injection heq with heq _
        exact hd es hreturn (by rw [heq])

/-- Only carriage returns are lost. -/
theorem mem_feedsOnly {c : Char} (h : c ≠ '\r') (s : List Char) : c ∈ feedsOnly s ↔ c ∈ s := by
  fun_induction feedsOnly s with
  | case1 => rfl
  | case2 cs ih => simp [h, ih]
  | case3 d ds _ ih => rw [List.mem_cons, List.mem_cons, ih]

/-- A text without line feeds has no line ends. -/
theorem feedsOnly_of_not_mem {s : List Char} (h : '\n' ∉ s) : feedsOnly s = s := by
  fun_induction feedsOnly s with
  | case1 => rfl
  | case2 cs ih => simp at h
  | case3 d ds _ ih => rw [ih fun hmem => h (List.mem_cons_of_mem _ hmem)]

theorem exists_lines_cons (c : Char) (cs : List Char) : ∃ l ls, lines (c :: cs) = l :: ls := by
  unfold lines
  split
  · next heq => cases heq
  · exact ⟨_, _, rfl⟩
  · exact ⟨_, _, rfl⟩
  · split <;> exact ⟨_, _, rfl⟩

/-- A text that does not end in a line feed is its lines, but for the carriage returns of its line
ends. -/
theorem unlines_lines {s : List Char} (h : s.getLast? ≠ some '\n') :
    unlines (lines s) = feedsOnly s := by
  have hfeed : ∀ d ds, unlines ([] :: lines (d :: ds)) = '\n' :: unlines (lines (d :: ds)) := by
    intro d ds
    obtain ⟨l, ls, hlines⟩ := exists_lines_cons d ds
    rw [hlines, unlines_cons_cons, List.nil_append]
  fun_induction lines s with
  | case1 => rfl
  | case2 cs ih =>
    cases cs with
    | nil => exact absurd rfl h
    | cons d ds => rw [hfeed, ih h, feedsOnly_cons_of_ne (c := '\n') (by decide)]
  | case3 cs ih =>
    cases cs with
    | nil => exact absurd rfl h
    | cons d ds => rw [hfeed, ih h, feedsOnly]
  | case4 c cs _ hreturn heq ih =>
    cases cs with
    | nil => exact (feedsOnly_cons fun s hc => hreturn s hc).symm
    | cons d ds =>
      obtain ⟨l, ls, hlines⟩ := exists_lines_cons d ds
      rw [heq] at hlines
      cases hlines
  | case5 c cs _ hreturn l ls heq ih =>
    have hrest : unlines (lines cs) = feedsOnly cs := by
      cases cs with
      | nil => rfl
      | cons d ds => exact ih h
    rw [unlines_cons, List.cons_append, ← unlines_cons, ← heq, hrest, feedsOnly_cons hreturn]

/-- The lines of a text are read as they are when a line feed and more text stand behind them. -/
theorem lines_append_of_getLast? {w : List Char} (hne : w ≠ []) (hfeed : w.getLast? ≠ some '\n')
    (hreturn : w.getLast? ≠ some '\r') (rest : List Char) :
    lines (w ++ '\n' :: rest) = lines w ++ lines rest := by
  fun_induction lines w with
  | case1 => exact absurd rfl hne
  | case2 cs ih =>
    cases cs with
    | nil => exact absurd rfl hfeed
    | cons d ds =>
      have hrest := ih (List.cons_ne_nil d ds) hfeed hreturn
      rw [List.cons_append, lines, hrest, List.cons_append]
  | case3 cs ih =>
    cases cs with
    | nil => exact absurd rfl hfeed
    | cons d ds =>
      have hrest := ih (List.cons_ne_nil d ds) hfeed hreturn
      rw [List.cons_append, List.cons_append, lines, hrest, List.cons_append]
  | case4 c cs hc _ heq ih =>
    cases cs with
    | nil =>
      have hlast : c ≠ '\r' := fun heq => hreturn (by rw [heq]; rfl)
      rw [List.singleton_append, lines_cons hc fun _ heq => absurd heq hlast]
      rfl
    | cons d ds =>
      obtain ⟨l, ls, hlines⟩ := exists_lines_cons d ds
      rw [heq] at hlines
      cases hlines
  | case5 c cs hc hpair l ls heq ih =>
    cases cs with
    | nil => cases heq
    | cons d ds =>
      have hrest := ih (List.cons_ne_nil d ds) hfeed hreturn
      have hpair' : ∀ s, c = '\r' → d :: ds ++ '\n' :: rest ≠ '\n' :: s := by
        intro s hc heq
        injection heq with hd _
        exact hpair ds hc (by rw [hd])
      rw [List.cons_append, lines_cons hc hpair', hrest, heq]
      rfl

theorem unlines_append {ls ms : List (List Char)} (hls : ls ≠ []) (hms : ms ≠ []) :
    unlines (ls ++ ms) = unlines ls ++ '\n' :: unlines ms := by
  obtain ⟨l, ls, rfl⟩ := List.exists_cons_of_ne_nil hls
  obtain ⟨m, ms, rfl⟩ := List.exists_cons_of_ne_nil hms
  simp [unlines_cons]

/-- A text that can stand on lines of its own. -/
structure IsParagraph (w : List Char) : Prop where
  nonempty : w ≠ []
  noFeed : w.getLast? ≠ some '\n'
  noReturn : w.getLast? ≠ some '\r'

theorem IsParagraph.lines_ne_nil {w : List Char} (h : IsParagraph w) : lines w ≠ [] := by
  obtain ⟨c, cs, rfl⟩ := List.exists_cons_of_ne_nil h.nonempty
  obtain ⟨l, ls, hlines⟩ := exists_lines_cons c cs
  rw [hlines]
  exact List.cons_ne_nil l ls

/-- Paragraphs below each other are read one by one. -/
theorem lines_of_paragraphs {ws : List (List Char)} (h : ∀ w ∈ ws, IsParagraph w) :
    lines (ws.flatMap (· ++ ['\n'])) = ws.flatMap lines := by
  induction ws with
  | nil => rfl
  | cons w ws ih =>
    have hw := h w List.mem_cons_self
    rw [List.flatMap_cons, List.flatMap_cons, List.append_assoc, List.singleton_append,
      lines_append_of_getLast? hw.nonempty hw.noFeed hw.noReturn,
      ih fun w' hw' => h w' (List.mem_cons_of_mem _ hw')]

theorem unlines_flatMap_lines {ws : List (List Char)} (h : ∀ w ∈ ws, IsParagraph w) :
    unlines (ws.flatMap lines) = unlines (ws.map feedsOnly) := by
  induction ws with
  | nil => rfl
  | cons w ws ih =>
    have hw := h w List.mem_cons_self
    have hws := ih fun w' hw' => h w' (List.mem_cons_of_mem _ hw')
    cases ws with
    | nil => rw [List.flatMap_singleton, unlines_lines hw.noFeed]; rfl
    | cons w' ws =>
      have hrest : (w' :: ws).flatMap lines ≠ [] :=
        List.append_ne_nil_of_left_ne_nil (h w' (by simp)).lines_ne_nil _
      rw [List.flatMap_cons, unlines_append hw.lines_ne_nil hrest, hws, unlines_lines hw.noFeed,
        List.map_cons, List.map_cons, List.map_cons, unlines_cons_cons]

/-- Paragraphs in which no comment begins keep their lines when comments are taken off, with a line
feed at the end of each. -/
theorem stripComments_of_uncommented {ws : List (List Char)} (hws : ∀ w ∈ ws, IsParagraph w)
    (h : Uncommented none (ws.flatMap (· ++ ['\n']))) :
    Script.stripComments (ws.flatMap (· ++ ['\n'])) = unlines (ws.map feedsOnly) := by
  rw [Script.stripComments, h.lines_eq, lines_of_paragraphs hws, unlines_flatMap_lines hws]

end Text
end TaskTable
